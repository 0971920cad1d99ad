import FlipperBlocks.Application.Support
import FlipperBlocks.Proofs.C.Scan

/-! What the routines define and call.

A function is defined where its name stands before a parenthesis outside of all brackets. The tables
below are what a scanner finds in the routines' texts. -/
namespace FlipperBlocks

def Feature.requires : Feature → List Feature
  | fileRead | fileWrite | fileExists | fileCreate | fileDelete => [files]
  | busReady | busRead8 | busWrite8 | busRead16 | busWrite16 | busReadBytes | busWriteBytes => [bus]
  | servoTimer1 | servoLowPower => [pwm]
  | dht11 => [power5V]
  | _ => []

/-- The functions that are there for the code of blocks, by the feature that brings them in. -/
def Feature.drivers : Feature → List String
  | fileRead => ["storage_simple_read"]
  | fileWrite => ["storage_simple_write"]
  | fileExists => ["storage_simple_exists"]
  | fileCreate => ["storage_simple_create"]
  | fileDelete => ["storage_simple_delete"]
  | analog => ["adc_read_raw_on_gpio"]
  | servoTimer1 => ["servo_custom_pwm_set_params"]
  | servoLowPower => ["servo_lptim2_set_params"]
  | random => ["random_range"]
  | textToNumber => ["extract_number_from_string"]
  | distance => ["hc_sr04_measure_cm"]
  | dht11 => ["dht11_read_temperature_c", "dht11_read_humidity_percent"]
  | busReady => ["kb_i2c_device_ready"]
  | busRead8 => ["kb_i2c_read_reg8"]
  | busWrite8 => ["kb_i2c_write_reg8"]
  | busRead16 => ["kb_i2c_read_reg16"]
  | busWrite16 => ["kb_i2c_write_reg16"]
  | busReadBytes => ["kb_i2c_read_mem_bytes"]
  | busWriteBytes => ["kb_i2c_write_mem_bytes"]
  | _ => []

namespace Application

open C (Token tokens callsIn isOpener opener?)

def inner : List String := ["power_ensure_5v", "_resolve_i2c_handle"]

/-- The functions that tokens define, some brackets being open before them. -/
def definitionsIn : Nat → List Token → List String
  | _, [] => []
  | depth, .call name :: rest =>
    if depth = 0 then String.ofList name :: definitionsIn depth rest else definitionsIn depth rest
  | depth, .mark [c] :: rest =>
    if isOpener c then definitionsIn (depth + 1) rest
    else if (opener? c).isSome then definitionsIn (depth - 1) rest
    else definitionsIn depth rest
  | depth, _ :: rest => definitionsIn depth rest

namespace Routine

def text (routine : Routine) : String := "".intercalate (routine.rows.map (· ++ "\n"))

def functions (routine : Routine) : List String := definitionsIn 0 (tokens routine.text)

def calls (routine : Routine) : List String := C.calls routine.text

end Routine

theorem toList_joined (pieces : List String) :
    ("".intercalate pieces).toList = pieces.flatMap String.toList := by
  have joined (xs : List (List Char)) : ([] : List Char).intercalate xs = xs.flatten := by
    induction xs with
    | nil => rfl
    | cons first rest ih =>
      cases rest with
      | nil => simp [List.intercalate]
      | cons second rest => simp_all [List.intercalate]
  rw [String.toList_intercalate, List.flatMap_def]
  exact joined _

theorem joined_cons (piece : String) (rest : List String) :
    "".intercalate (piece :: rest) = piece ++ "".intercalate rest := by
  rw [← String.toList_inj, toList_joined, String.toList_append, toList_joined, List.flatMap_cons]

theorem joined_append (first second : List String) :
    "".intercalate (first ++ second) = "".intercalate first ++ "".intercalate second := by
  rw [← String.toList_inj, String.toList_append, toList_joined, toList_joined, toList_joined,
    List.flatMap_append]

/-- The characters of a text that is put together from literals. Unification finds them, which is
faster than to compute them. -/
inductive Spells : String → List Char → Prop
  | literal {cs} : Spells (String.ofList cs) cs
  | append {a b cs ds} : Spells a cs → Spells b ds → Spells (a ++ b) (cs ++ ds)

theorem Spells.toList_eq {text : String} {cs : List Char} (spells : Spells text cs) : text.toList = cs := by
  induction spells with
  | literal => exact String.toList_ofList
  | append _ _ first second => rw [String.toList_append, first, second]

inductive Letters : List String → List (List Char) → Prop
  | nil : Letters [] []
  | cons {text cs texts css} : Spells text cs → Letters texts css →
    Letters (text :: texts) (cs :: css)

theorem Letters.toList_eq {texts : List String} {css : List (List Char)}
    (letters : Letters texts css) : texts.map String.toList = css := by
  induction letters with
  | nil => rfl
  | cons spells _ ih => rw [List.map_cons, spells.toList_eq, ih]

def tokensOf (css : List (List Char)) : List Token :=
  match C.Scan.run .code (css.flatMap (· ++ ['\n'])) with
  | (found, mode) => found ++ C.Scan.pending mode

variable {routine : Routine} {names : List (List Char)}

theorem tokens_text {css : List (List Char)}
    (letters : Letters routine.rows css) : tokens routine.text = tokensOf css := by
  have characters : routine.text.toList = css.flatMap (· ++ ['\n']) := by
    rw [Routine.text, toList_joined, ← letters.toList_eq, List.flatMap_map, List.flatMap_map]
    simp
  unfold tokens tokensOf
  rw [characters]

def profiles : List (List String × List String) :=
  [(["storage_simple_read"], []),
    (["storage_simple_write"], []),
    (["storage_simple_exists"], []),
    (["storage_simple_create"], []),
    (["storage_simple_delete"], []),
    (["random_range"], []),
    (["extract_number_from_string"], []),
    (["adc_channel_for_gpio", "adc_read_raw_on_channel", "adc_read_raw_on_gpio",
      "adc_raw_to_mv_scale"], []),
    (["power_ensure_5v"], []),
    (["cycle_counter_enable", "hc_sr04_us_to_cm", "hc_sr04_measure_cm"], ["power_ensure_5v"]),
    (["_resolve_i2c_handle"], []),
    (["kb_i2c_read_reg8"], ["_resolve_i2c_handle"]),
    (["kb_i2c_write_reg8"], ["_resolve_i2c_handle"]),
    (["kb_i2c_read_reg16"], ["_resolve_i2c_handle"]),
    (["kb_i2c_write_reg16"], ["_resolve_i2c_handle"]),
    (["kb_i2c_write_mem_bytes"], ["_resolve_i2c_handle"]),
    (["kb_i2c_read_mem_bytes"], ["_resolve_i2c_handle"]),
    (["kb_i2c_device_ready"], ["_resolve_i2c_handle"]),
    (["dht11_line_setup", "dht11_read_raw", "dht11_read_temperature_c",
      "dht11_read_humidity_percent"], ["power_ensure_5v"]),
    (["servo_angle_to_compare", "servo_custom_pwm_set_params"], []),
    (["servo_angle_to_lptim_compare", "servo_lptim2_set_params"], [])]

def driverNames : List String := profiles.flatMap Prod.fst

def borrowed (names : List (List Char)) (list : List Token) : List String :=
  let own := definitionsIn 0 list
  ((list.filterMap fun
    | .call name => if names.contains name then some (String.ofList name) else none
    | _ => none).filter fun name => !own.contains name).eraseDups

theorem mem_borrowed {list : List Token} {name : String}
    (called : name ∈ callsIn list) (driver : name.toList ∈ names)
    (foreign : name ∉ definitionsIn 0 list) : name ∈ borrowed names list := by
  simp only [callsIn, List.mem_filterMap] at called
  obtain ⟨token, member, found⟩ := called
  simp only [borrowed, List.mem_eraseDups, List.mem_filter, List.mem_filterMap]
  refine ⟨⟨token, member, ?_⟩, by simpa using foreign⟩
  cases token with
  | call letters =>
    injection found with same
    rw [← same, String.toList_ofList] at driver
    simp [driver, same]
  | _ => contradiction

def profileOf (names css : List (List Char)) : List String × List String :=
  let list := tokensOf css
  (definitionsIn 0 list, borrowed names list)

inductive Scanned : List Routine → List (List (List Char)) → Prop
  | nil : Scanned [] []
  | cons {routine css routines csss} : Letters routine.rows css → Scanned routines csss →
    Scanned (routine :: routines) (css :: csss)

theorem Scanned.exists_letters {routines : List Routine} {csss : List (List (List Char))}
    (scanned : Scanned routines csss) (member : routine ∈ routines) :
    ∃ css ∈ csss, Letters routine.rows css := by
  induction scanned with
  | nil => contradiction
  | cons letters _ ih =>
    rcases List.mem_cons.1 member with rfl | later
    · exact ⟨_, List.mem_cons_self, letters⟩
    · obtain ⟨css, among, found⟩ := ih later
      exact ⟨css, List.mem_cons_of_mem _ among, found⟩

structure Describes (profile : List String × List String) (routine : Routine) : Prop where
  functions : routine.functions = profile.1
  calls : ∀ name ∈ routine.calls, name ∈ driverNames → name ∈ profile.1 ∨ name ∈ profile.2

theorem describes_profileOf {css : List (List Char)}
    (drivers : Letters driverNames names) (letters : Letters routine.rows css) :
    Describes (profileOf names css) routine := by
  have functions : routine.functions = (profileOf names css).1 := by
    rw [Routine.functions, tokens_text letters]
    rfl
  refine ⟨functions, fun name called driver => ?_⟩
  by_cases own : name ∈ (profileOf names css).1
  · exact .inl own
  · right
    rw [Routine.calls, C.calls, tokens_text letters] at called
    refine mem_borrowed called ?_ own
    rw [← drivers.toList_eq]
    exact List.mem_map_of_mem driver

theorem describes_zip {routines : List Routine} {csss : List (List (List Char))}
    {profiles : List (List String × List String)}
    (drivers : Letters driverNames names) (scanned : Scanned routines csss)
    (table : csss.map (profileOf names) = profiles) :
    ∀ described ∈ routines.zip profiles, Describes described.2 described.1 := by
  induction scanned generalizing profiles with
  | nil =>
    intro described member
    contradiction
  | @cons first css rest csss letters scanned ih =>
    subst table
    intro described member
    rw [List.map_cons, List.zip_cons_cons, List.mem_cons] at member
    rcases member with same | later
    · rw [same]
      exact describes_profileOf drivers letters
    · exact ih rfl described later

def catalogue : List (Routine × List String × List String) := routines.zip profiles

theorem describes_catalogue : ∀ described ∈ catalogue, Describes described.2 described.1 := by
  apply describes_zip
  -- Names and rows are literals, whose characters the constructors find.
  · repeat constructor
  · repeat constructor
  · decide +kernel

theorem exists_profile (routine : Routine) (member : routine ∈ routines) :
    ∃ profile, (routine, profile) ∈ catalogue ∧ Describes profile routine := by
  have paired : routine ∈ catalogue.map Prod.fst := by
    rw [catalogue, List.map_fst_zip (by decide)]
    exact member
  obtain ⟨described, listed, same⟩ := List.mem_map.1 paired
  exact ⟨described.2, same ▸ listed, same ▸ describes_catalogue described listed⟩

theorem catalogue_served :
    ∀ caller ∈ catalogue, ∀ callee ∈ catalogue, ∀ name ∈ caller.2.1 ++ caller.2.2,
      name ∈ callee.2.1 → ∀ feature ∈ caller.1.wantedBy,
        ∃ other ∈ feature :: feature.requires, other ∈ callee.1.wantedBy := by
  decide +kernel

/-- The drivers of a feature are defined in every routine that it brings in, unless only other
routines need it. -/
theorem catalogue_drivers : ∀ described ∈ catalogue, ∀ feature ∈ described.1.wantedBy,
    (∃ name ∈ described.2.1, name ∈ inner) ∨
      feature.drivers ≠ [] ∧ ∀ name ∈ feature.drivers, name ∈ described.2.1 := by
  decide +kernel

theorem routines_wanted : ∀ routine ∈ routines, routine.wantedBy.isEmpty = false := by decide

theorem isWanted_iff (member : routine ∈ routines) {features : Features} :
    isWanted routine.wantedBy features = true ↔
      ∃ feature ∈ routine.wantedBy, features.has feature = true := by
  rw [isWanted, routines_wanted routine member, Bool.false_or, Features.hasAny, List.any_eq_true]

theorem mem_driverNames (member : routine ∈ routines) {name : String}
    (defined : name ∈ routine.functions) : name ∈ driverNames := by
  obtain ⟨profile, paired, describes⟩ := exists_profile routine member
  rw [describes.functions] at defined
  exact List.mem_flatMap_of_mem (List.of_mem_zip paired).2 defined

/-- A routine calls functions of other routines only if the features that want it, or those they
require, want the other routines as well. -/
theorem wantedBy_of_calls {caller callee : Routine} (first : caller ∈ routines)
    (second : callee ∈ routines) {name : String} (called : name ∈ caller.calls)
    (defined : name ∈ callee.functions) {feature : Feature} (wanted : feature ∈ caller.wantedBy) :
    ∃ other ∈ feature :: feature.requires, other ∈ callee.wantedBy := by
  have driver := mem_driverNames second defined
  obtain ⟨callers, pairedFirst, describesFirst⟩ := exists_profile caller first
  obtain ⟨callees, pairedSecond, describesSecond⟩ := exists_profile callee second
  rw [describesSecond.functions] at defined
  have listed : name ∈ callers.1 ++ callers.2 := List.mem_append.2 (describesFirst.calls name called driver)
  exact catalogue_served _ pairedFirst _ pairedSecond name listed defined feature wanted

end Application

end FlipperBlocks
