import MailCue.Lib.Text

/-!
# Domain names

A name is its labels, the root has none. Libraries write names differently, but all
write the root as a single dot and no other name with dots alone; a `Rendering` is any
of them. The plain one writes every octet that is no letter, digit, hyphen or
underscore as a backslash and three digits.
-/
namespace MailCue.Lib

/-- A label has at least one octet. -/
abbrev Label := { octets : List UInt8 // octets ≠ [] }

abbrev Name := List Label

def isDot (c : Char) : Bool := c = '.'

/-- The text without the dots at its end. -/
def stripDots (text : Text) : Text := text.rdropWhile isDot

structure Rendering where
  text : Name → Text
  root : text [] = ['.']
  named : ∀ name : Name, name ≠ [] → ∃ c ∈ text name, c ≠ '.'

namespace Rendering
variable (rendering : Rendering)

theorem strip_eq_nil_iff (name : Name) : stripDots (rendering.text name) = [] ↔ name = [] := by
  rw [stripDots, List.rdropWhile_eq_nil_iff]
  constructor
  · intro hall
    by_contra hname
    obtain ⟨c, hc, hdot⟩ := rendering.named name hname
    exact hdot (of_decide_eq_true (hall c hc))
  · rintro rfl c hc
    rw [rendering.root, List.mem_singleton] at hc
    exact decide_eq_true hc

theorem text_eq_dot_iff (name : Name) : rendering.text name = ['.'] ↔ name = [] := by
  constructor
  · intro htext
    by_contra hname
    obtain ⟨c, hc, hdot⟩ := rendering.named name hname
    rw [htext, List.mem_singleton] at hc
    exact hdot hc
  · rintro rfl
    exact rendering.root

/-- No text without the dots at its end is a dot. -/
theorem strip_ne_dot (text : Text) : stripDots text ≠ ['.'] := by
  intro h
  have hdot : text.rdropWhile isDot = ['.'] := h
  have hlast := List.rdropWhile_last_not isDot text (by rw [hdot]; exact List.cons_ne_nil _ _)
  simp only [hdot] at hlast
  exact hlast rfl

end Rendering

/-! ## The plain rendering -/

def isHostOctet (octet : UInt8) : Bool :=
  let c := Char.ofNat octet.toNat
  c.isAlphanum || c == '-' || c == '_'

def escapeOctet (octet : UInt8) : Text :=
  if isHostOctet octet then [Char.ofNat octet.toNat]
  else
    let digit (n : Nat) : Char := Char.ofNat (48 + n % 10)
    ['\\', digit (octet.toNat / 100), digit (octet.toNat / 10), digit octet.toNat]

def plainText : Name → Text
  | [] => ['.']
  | name => name.flatMap fun label => label.val.flatMap escapeOctet ++ ['.']

theorem exists_escapeOctet (octet : UInt8) : ∃ c ∈ escapeOctet octet, c ≠ '.' := by
  unfold escapeOctet
  split
  · rename_i hhost
    refine ⟨_, List.mem_singleton_self _, fun hdot => ?_⟩
    rw [isHostOctet, hdot] at hhost
    exact absurd hhost (by decide)
  · exact ⟨'\\', List.mem_cons_self, by decide⟩

def Rendering.plain : Rendering where
  text := plainText
  root := rfl
  named name hname := by
    obtain ⟨label, rest, rfl⟩ := List.exists_cons_of_ne_nil hname
    obtain ⟨octet, octets, hlabel⟩ := List.exists_cons_of_ne_nil label.property
    obtain ⟨c, hc, hdot⟩ := exists_escapeOctet octet
    refine ⟨c, List.mem_flatMap.mpr ⟨label, List.mem_cons_self, List.mem_append_left _ ?_⟩, hdot⟩
    rw [hlabel]
    exact List.mem_flatMap.mpr ⟨octet, List.mem_cons_self, hc⟩

end MailCue.Lib
