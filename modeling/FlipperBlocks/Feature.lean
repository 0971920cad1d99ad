/-! Features: what a program needs besides its own code.

A feature brings headers and helper routines into the program. -/
namespace FlipperBlocks

inductive Feature where
  | files
  | fileRead
  | fileWrite
  | fileExists
  | fileCreate
  | fileDelete
  | pins
  | analog
  | pwm
  | servoTimer1
  | servoLowPower
  | timer
  | random
  | textToNumber
  | distance
  | dht11
  | power5V
  | notifications
  | math
  | bus
  | busReady
  | busRead8
  | busWrite8
  | busRead16
  | busWrite16
  | busReadBytes
  | busWriteBytes
  deriving DecidableEq

namespace Feature

def all : List Feature :=
  [files, fileRead, fileWrite, fileExists, fileCreate, fileDelete, pins, analog, pwm, servoTimer1,
    servoLowPower, timer, random, textToNumber, distance, dht11, power5V, notifications, math, bus,
    busReady, busRead8, busWrite8, busRead16, busWrite16, busReadBytes, busWriteBytes]

def index : Feature → Nat
  | files => 0
  | fileRead => 1
  | fileWrite => 2
  | fileExists => 3
  | fileCreate => 4
  | fileDelete => 5
  | pins => 6
  | analog => 7
  | pwm => 8
  | servoTimer1 => 9
  | servoLowPower => 10
  | timer => 11
  | random => 12
  | textToNumber => 13
  | distance => 14
  | dht11 => 15
  | power5V => 16
  | notifications => 17
  | math => 18
  | bus => 19
  | busReady => 20
  | busRead8 => 21
  | busWrite8 => 22
  | busRead16 => 23
  | busWrite16 => 24
  | busReadBytes => 25
  | busWriteBytes => 26

theorem index_lt (feature : Feature) : feature.index < 27 := by cases feature <;> decide

theorem index_inj {a b : Feature} : a.index = b.index ↔ a = b := by cases a <;> cases b <;> decide

def powered : List Feature := [distance, dht11, power5V]

def servo : List Feature := [servoTimer1, servoLowPower]

end Feature

/-- A set of features, one bit for each. -/
structure Features where
  bits : BitVec 27
  deriving DecidableEq

namespace Features

def empty : Features := ⟨0⟩

def has (features : Features) (feature : Feature) : Bool := features.bits.getLsbD feature.index

def insert (features : Features) (feature : Feature) : Features :=
  ⟨features.bits ||| BitVec.twoPow 27 feature.index⟩

def union (a b : Features) : Features := ⟨a.bits ||| b.bits⟩

def hasAny (features : Features) (list : List Feature) : Bool := list.any features.has

@[simp] theorem has_empty (feature : Feature) : empty.has feature = false := by simp [has, empty]

@[simp] theorem has_insert (features : Features) (a b : Feature) :
    (features.insert a).has b = (features.has b || decide (b = a)) := by
  have bound := Feature.index_lt b
  simp [has, insert, bound, Feature.index_inj]

end Features

end FlipperBlocks
