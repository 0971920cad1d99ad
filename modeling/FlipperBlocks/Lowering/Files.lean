import FlipperBlocks.Lowering.Conversion

/-! Files on the storage card. -/
namespace FlipperBlocks.Lowering

open C (Code)

variable (site : Site)

def filePath : Lowering Value := site.shown "PATH" "/ext/apps_data/app/file.txt"

def readFile : Lowering Value := do
  enable [.files, .fileRead]
  let path ← filePath site
  let buffer ← sharedBuffer "storage_buffer" 1024
  deferred
    (.call "storage_simple_read" [.name buffer, .sizeOf (.name buffer), path.expr])
    ⟨.name buffer, .text, none⟩

def fileExists : Lowering Value := do
  enable [.files, .fileExists]
  let path ← filePath site
  return ⟨.call "storage_simple_exists" [path.expr], .truth, none⟩

def writeFile : Lowering Code := do
  enable [.files, .fileWrite]
  let path ← filePath site
  let contents ← site.shown "DATA" ""
  return Code.run (.call "storage_simple_write" [path.expr, contents.expr])

def createFile : Lowering Code := do
  enable [.files, .fileCreate]
  let path ← filePath site
  return Code.run (.call "storage_simple_create" [path.expr])

def deleteFile : Lowering Code := do
  enable [.files, .fileDelete]
  let path ← filePath site
  return Code.run (.call "storage_simple_delete" [path.expr])

end FlipperBlocks.Lowering
