import Mathlib
import MailCue.Lib.Text

/-!
# JSON documents

Documents as values, numbers as integers, and typed reading of the fields of an
object: a field may be missing, and no field may stand there twice.
-/
namespace MailCue.Lib

inductive Json
  | null
  | bool (b : Bool)
  | num (n : Int)
  | str (s : Text)
  | arr (elements : List Json)
  | obj (fields : List (String × Json))

namespace Json

abbrev Fields := List (String × Json)

/-- The value of a field, if it is there; nothing for a field that is there twice. -/
def field (fields : Fields) (name : String) : Option (Option Json) :=
  match fields.filter fun entry => entry.1 == name with
  | [] => some none
  | [entry] => some (some entry.2)
  | _ => none

def text : Json → Option Text
  | .str s => some s
  | _ => none

def boolean : Json → Option Bool
  | .bool b => some b
  | _ => none

/-- An integer of so many bits without a sign. -/
def unsigned (bits : Nat) : Json → Option Nat
  | .num n => if 0 ≤ n ∧ n < 2 ^ bits then some n.toNat else none
  | _ => none

def array : Json → Option (List Json)
  | .arr elements => some elements
  | _ => none

def object : Json → Option Fields
  | .obj fields => some fields
  | _ => none

def required {α : Type} (read : Json → Option α) (fields : Fields) (name : String) : Option α :=
  match field fields name with
  | some (some value) => read value
  | _ => none

def withDefault {α : Type} (read : Json → Option α) (default : α) (fields : Fields)
    (name : String) : Option α :=
  match field fields name with
  | some (some value) => read value
  | some none => some default
  | none => none

/-- A field that may be missing or null. -/
def optional {α : Type} (read : Json → Option α) (fields : Fields) (name : String) :
    Option (Option α) :=
  match field fields name with
  | some (some .null) => some none
  | some (some value) => (read value).map some
  | some none => some none
  | none => none

theorem unsigned_num {bits : Nat} {n : Int} (h : 0 ≤ n ∧ n < 2 ^ bits) :
    unsigned bits (.num n) = some n.toNat := if_pos h

end Json

end MailCue.Lib
