import MailCue.Backend.Mailboxes.Access

/-!
# The users file as a map

What one upsert and one removal of backend/app/mailboxes/service.py do to the lines of
each identity, for every content of the file. The upsert writes its line behind whatever
the file ends in; the removal looks for the address as it is spelt.
-/
namespace MailCue.Backend.Mailboxes
open MailCue.Lib

variable {casefold : Text → Text} {address line file : Text}

/-! ## The lines callers write -/

/-- The line of `_provision_system_mailbox` and of `_ensure_dovecot_user`. -/
theorem ownLine_userLine {hashed maildir : Text}
    (haddress : ∀ c ∈ address, isLineBreak c = false) (hcolon : ':' ∉ address)
    (hhashed : ∀ c ∈ hashed, isLineBreak c = false)
    (hmaildir : ∀ c ∈ maildir, isLineBreak c = false) :
    OwnLine casefold address (userLine address hashed maildir) := by
  have hends : userLine address hashed maildir =
      (address ++ ':' :: hashed ++ ":5000:5000::".toList ++ maildir ++ [':', ':']) ++ ['\n'] := by
    simp [userLine]
  have hsame : replacement (userLine address hashed maildir) =
      userLine address hashed maildir := by
    rw [replacement, if_pos]
    exact List.isSuffixOf_iff_suffix.mpr ⟨_, hends.symm⟩
  rw [OwnLine, hsame]
  constructor
  · refine ⟨_, '\n', hends, by decide, ?_⟩
    have hfixed : ∀ c ∈ ":5000:5000::".toList, isLineBreak c = false :=
      List.forall_iff_forall_mem.mp (by decide)
    simp only [List.mem_append, List.mem_cons, List.not_mem_nil, or_false]
    rintro c ((((hc | rfl | hc) | hc) | hc) | rfl | rfl)
    · exact haddress c hc
    · rfl
    · exact hhashed c hc
    · exact hfixed c hc
    · exact hmaildir c hc
    · rfl
    · rfl
  · have hname : lineName (userLine address hashed maildir) = address := by
      have hcut : userLine address hashed maildir =
          address ++ ':' :: (hashed ++ ":5000:5000::".toList ++ maildir ++ "::\n".toList) := by
        simp [userLine]
      rw [lineName, hcut, List.takeWhile_append_of_pos fun c hc => Text.bne_of_not_mem hcolon hc]
      simp
    rw [hname]

/-- A line of the file that identifies the address, without its break, can be written
again: what `_ensure_dovecot_user` does with the last of several. -/
theorem ownLine_of_matching (hplain : ∀ c ∈ line, isLineBreak c = false)
    (hname : casefold (lineName (line ++ ['\n'])) = casefold address) :
    OwnLine casefold address line := by
  have hsame : replacement line = line ++ ['\n'] := by
    rw [replacement, if_neg]
    intro hsuffix
    obtain ⟨front, rfl⟩ := List.isSuffixOf_iff_suffix.mp hsuffix
    have hbreak := hplain '\n' (by simp)
    exact absurd hbreak (by decide)
  rw [OwnLine, hsame]
  exact ⟨⟨line, '\n', rfl, by decide, hplain⟩, hname⟩

/-! ## The two operations -/

/-- One line identifies the address, and of no other identity is anything changed. -/
def Upserted (casefold : Text → Text) (address line file : Text) : Prop :=
  (entries casefold (upsertDovecotUser casefold address line file) (casefold address)).length = 1 ∧
    ∀ identity, identity ≠ casefold address →
      entries casefold (upsertDovecotUser casefold address line file) identity =
        entries casefold file identity

/-- No line identifies the address, and of no other identity is anything changed. -/
def Removed (casefold : Text → Text) (address file : Text) : Prop :=
  entries casefold (removeFromDovecotUsers address file) (casefold address) = [] ∧
    ∀ identity, identity ≠ casefold address →
      entries casefold (removeFromDovecotUsers address file) identity =
        entries casefold file identity

/-- Whatever stood in the file, behind an upsert it ends in a break. -/
theorem terminated_upsertDovecotUser (hline : Lines.Ended isLineBreak (replacement line)) :
    Terminated (upsertDovecotUser casefold address line file) := by
  obtain ⟨body, c, hbody, hc, -⟩ := id hline
  have hno : '\r' ∉ upsertDovecotUser casefold address line file := by
    intro hmem
    rcases List.mem_append.mp hmem with hmem | hmem
    · obtain ⟨l, hl, hcr⟩ := List.mem_flatten.mp hmem
      exact no_cr_of_mem_usersLines (List.mem_of_mem_filter hl) hcr
    · exact replacement_no_cr hline hmem
  rw [Terminated, usersLines, universalNewlines_of_no_cr hno, upsertDovecotUser, hbody,
    ← List.append_assoc]
  exact Lines.ended_of_mem_splitLines hc _

/-- A line of another identity that the file ends in the middle of is lost. -/
theorem upserted_iff (hline : OwnLine casefold address line) (file : Text) :
    Upserted casefold address line file ↔ ∀ l ∈ usersLines file,
      Lines.Ended isLineBreak l ∨ casefold (lineName l) = casefold address := by
  constructor
  · rintro ⟨-, hothers⟩ l hl
    by_cases hown : casefold (lineName l) = casefold address
    · exact .inr hown
    · have hkept : l ∈ entries casefold file (casefold (lineName l)) := mem_entries.mpr ⟨hl, rfl⟩
      rw [← hothers _ hown] at hkept
      exact .inl (terminated_upsertDovecotUser hline.1 l (mem_entries.mp hkept).1)
  · intro h
    refine ⟨by rw [entries_upsert_own h hline]; rfl, fun identity hne => ?_⟩
    exact entries_upsert_other h hline hne.symm

/-- A removal's test has to find the lines of the identity, and those only. -/
theorem removed_iff (address file : Text) :
    Removed casefold address file ↔ ∀ l ∈ usersLines file,
      address ++ [':'] <+: l ↔ casefold (lineName l) = casefold address := by
  constructor
  · rintro ⟨hown, hothers⟩ l hl
    have hfound : ∀ identity, l ∈ entries casefold (removeFromDovecotUsers address file) identity →
        ¬ address ++ [':'] <+: l := by
      intro identity hmem hpre
      rw [mem_entries, usersLines_remove, List.mem_filter] at hmem
      rw [List.isPrefixOf_iff_prefix.mpr hpre] at hmem
      exact absurd hmem.1.2 (by decide)
    constructor
    · intro hpre
      by_contra hother
      have hkept : l ∈ entries casefold file (casefold (lineName l)) := mem_entries.mpr ⟨hl, rfl⟩
      rw [← hothers _ hother] at hkept
      exact hfound _ hkept hpre
    · intro hid
      by_contra hpre
      have hkept : l ∈ entries casefold (removeFromDovecotUsers address file)
          (casefold address) := by
        rw [mem_entries, usersLines_remove, List.mem_filter]
        refine ⟨⟨hl, ?_⟩, hid⟩
        rw [Bool.eq_false_iff.mpr fun h => hpre (List.isPrefixOf_iff_prefix.mp h)]
        rfl
      rw [hown] at hkept
      cases hkept
  · intro h
    have hfits : Fits casefold (.remove address) file := h
    exact ⟨entries_rewrite_own hfits, fun identity hne => entries_rewrite_other hfits hne.symm⟩

/-- Where an upsert and a removal are operations of a map of identities. -/
theorem users_map_iff (hline : OwnLine casefold address line) (file : Text) :
    (Upserted casefold address line file ↔ ∀ l ∈ usersLines file,
      Lines.Ended isLineBreak l ∨ casefold (lineName l) = casefold address) ∧
    (Removed casefold address file ↔ ∀ l ∈ usersLines file,
      address ++ [':'] <+: l ↔ casefold (lineName l) = casefold address) :=
  ⟨upserted_iff hline file, removed_iff address file⟩

theorem users_map_iff_with_comment :
    OwnLine Text.asciiLower "dana@x".toList "dana@x:2\n".toList ∧
      Upserted Text.asciiLower "dana@x".toList "dana@x:2\n".toList
        "# staff\n\nDana@x:1\nerin@x:1\n".toList := by
  have hline : OwnLine Text.asciiLower "dana@x".toList "dana@x:2\n".toList := by decide
  exact ⟨hline, (users_map_iff hline _).1.mpr (by decide)⟩

/-- Dana's line goes behind Erin's, which has no break yet, and makes one line of the
two; a removal leaves Erin's line where it is spelt in another case. -/
theorem users_map_fails :
    OwnLine Text.asciiLower "dana@x".toList "dana@x:2\n".toList ∧
      ¬ Upserted Text.asciiLower "dana@x".toList "dana@x:2\n".toList "erin@x:1".toList ∧
      ¬ Removed Text.asciiLower "erin@x".toList "Erin@x:1\n".toList := by
  refine ⟨by decide, fun h => ?_, fun h => ?_⟩
  · exact absurd h.1 (by decide)
  · exact absurd h.1 (by decide)

end MailCue.Backend.Mailboxes
