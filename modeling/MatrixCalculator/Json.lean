import MatrixCalculator.Double

/-! JSON values. Whole numbers and doubles are told apart, and the fields of an object keep the
order in which their keys came first. A string need not be a text: an escape can put half of a
surrogate pair into it, and without its other half this is no character. -/
namespace MatrixCalculator

namespace Json

/-- One position of a string. The halves of surrogate pairs are counted from the first one. -/
inductive Point
  | char (c : Char)
  | half (offset : Fin 2048)
deriving Repr, DecidableEq

def Point.char? : Point → Option Char
  | .char c => some c
  | .half _ => none

/-- A string: a text, or what is none for a half in it. -/
inductive Str
  | whole (s : String)
  | broken (points : List Point) (torn : (points.all fun p => p.char?.isSome) = false)
deriving DecidableEq

instance : Coe String Str := ⟨.whole⟩

namespace Str

def points : Str → List Point
  | whole s => s.toList.map .char
  | broken points _ => points

def ofPoints (points : List Point) : Str :=
  if torn : (points.all fun p => p.char?.isSome) = false then broken points torn
  else whole (String.ofList (points.filterMap Point.char?))

def isWhole : Str → Bool
  | whole _ => true
  | broken _ _ => false

theorem ofPoints_points (s : Str) : ofPoints s.points = s := by
  cases s with
  | whole s =>
    have all : ((s.toList.map Point.char).all fun p => p.char?.isSome) = true := by
      simp [Point.char?]
    have chars : (s.toList.map Point.char).filterMap Point.char? = s.toList := by
      rw [List.filterMap_map]
      exact List.filterMap_some
    rw [points, ofPoints, dif_neg (by simp [all]), chars, String.ofList_toList]
  | broken points torn => exact dif_pos torn

end Str

end Json

inductive Json
  | null
  | bool (b : Bool)
  | integer (n : Int)
  | double (x : Float)
  | string (s : Json.Str)
  | array (items : List Json)
  | object (fields : List (Json.Str × Json))

namespace Json

abbrev Fields := List (Str × Json)

def field? (fields : Fields) (key : Str) : Option Json :=
  fields.lookup key

/-- Gives a key a value: in its place if the key is present, and otherwise at the end. -/
def put (key : Str) (value : Json) : Fields → Fields
  | [] => [(key, value)]
  | (k, v) :: rest => if k = key then (k, value) :: rest else (k, v) :: put key value rest

def putDefault (key : Str) (value : Json) (fields : Fields) : Fields :=
  if (field? fields key).isSome then fields else put key value fields

def overlay (base upper : Fields) : Fields :=
  upper.foldl (fun fields f => put f.1 f.2 fields) base

/-- Whether a value counts as a yes: everything but null, false, zeros and what is empty. -/
def isTruthy : Json → Bool
  | null => false
  | bool b => b
  | integer n => n != 0
  | double x => !(x == 0)
  | string s => s != .whole ""
  | array items => !items.isEmpty
  | object fields => !fields.isEmpty

@[simp] theorem field?_put_self (key : Str) (value : Json) (fields : Fields) :
    field? (put key value fields) key = some value := by
  induction fields with
  | nil => simp [put, field?]
  | cons f rest ih =>
    obtain ⟨k, v⟩ := f
    simp only [put]
    split
    · next same => simp [field?, same]
    · next different =>
      have apart : (key == k) = false := by simpa using Ne.symm different
      simpa [field?, List.lookup_cons, apart] using ih

theorem field?_put_other {key other : Str} (different : other ≠ key) (value : Json)
    (fields : Fields) : field? (put key value fields) other = field? fields other := by
  have apart : (other == key) = false := by simpa using different
  induction fields with
  | nil => simp [put, field?, List.lookup_cons, apart]
  | cons f rest ih =>
    obtain ⟨k, v⟩ := f
    simp only [put]
    split
    · next same => subst same; simp [field?, List.lookup_cons, apart]
    · simp only [field?, List.lookup_cons] at ih ⊢
      rw [ih]

end Json

end MatrixCalculator
