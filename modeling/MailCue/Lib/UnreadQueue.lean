import Mathlib.Data.List.Nodup
import Mathlib.Data.List.Range
import Mathlib.Tactic.Common

/-!
# Unread messages as a queue

Messages in the order of their arrival, each with a flag that says whether it has been
read; a message is named by its place. A consumer looks at the newest unread messages
and marks what it has looked at as read.
-/
namespace MailCue.Lib

structure Held (α : Type) where
  content : α
  unread : Bool := true

structure UnreadQueue (α : Type) where
  messages : List (Held α) := []

namespace UnreadQueue

variable {α : Type} (q : UnreadQueue α)

def contentAt (n : Nat) : Option α := q.messages[n]?.map (·.content)

def unreadAt (n : Nat) : Bool := q.messages[n]?.any (·.unread)

def readAt (n : Nat) : Bool := q.messages[n]?.any fun held => !held.unread

def arrive (x : α) : UnreadQueue α := ⟨q.messages ++ [{ content := x }]⟩

def unseen : List Nat := (List.range q.messages.length).filter q.unreadAt

/-- The last of the unseen messages, as a slice from the end. -/
def newest (limit : Nat) : List Nat := q.unseen.drop (q.unseen.length - limit)

def markSeen (places : List Nat) : UnreadQueue α :=
  ⟨q.messages.mapIdx fun n held => if n ∈ places then { held with unread := false } else held⟩

/-! ## One message -/

variable {q} {n : Nat}

@[simp] theorem mem_unseen : n ∈ q.unseen ↔ q.unreadAt n = true := by
  rw [unseen, List.mem_filter, List.mem_range, and_iff_right_iff_imp]
  intro h
  obtain ⟨held, hheld, -⟩ := (Option.any_eq_true _ _).mp h
  exact (List.getElem?_eq_some_iff.mp hheld).1

theorem unreadAt_eq_not_readAt {x : α} (h : q.contentAt n = some x) :
    q.unreadAt n = !q.readAt n := by
  obtain ⟨held, hheld, -⟩ := Option.map_eq_some_iff.mp h
  simp [unreadAt, readAt, hheld]

theorem readAt_of_not_unreadAt {x : α} (h : q.contentAt n = some x) (hn : q.unreadAt n = false) :
    q.readAt n = true := by
  simpa [unreadAt_eq_not_readAt h] using hn

theorem not_unreadAt_of_readAt (h : q.readAt n = true) : q.unreadAt n = false := by
  obtain ⟨held, hheld, hread⟩ := (Option.any_eq_true _ _).mp h
  simpa [unreadAt, hheld] using hread

theorem mem_newest {limit : Nat} (h : n ∈ q.newest limit) : q.unreadAt n = true :=
  mem_unseen.mp (List.mem_of_mem_drop h)

theorem unseen_nodup (q : UnreadQueue α) : q.unseen.Nodup := List.nodup_range.filter _

theorem newest_nodup (q : UnreadQueue α) (limit : Nat) : (q.newest limit).Nodup :=
  q.unseen_nodup.sublist (List.drop_sublist _ _)

/-! ## An arrival -/

theorem contentAt_arrive {x y : α} (h : (q.arrive x).contentAt n = some y) :
    q.contentAt n = some y ∨
      q.messages.length = n ∧ y = x ∧ (q.arrive x).unreadAt n = true := by
  by_cases hn : n < q.messages.length
  · left
    simpa [contentAt, arrive, List.getElem?_append_left hn] using h
  · right
    have hlast : n = q.messages.length := by
      obtain ⟨held, hheld, -⟩ := Option.map_eq_some_iff.mp h
      have hlt := (List.getElem?_eq_some_iff.mp hheld).1
      simp only [arrive, List.length_append, List.length_singleton] at hlt
      omega
    subst hlast
    have hx : x = y := by simpa [contentAt, arrive] using h
    exact ⟨rfl, hx.symm, by simp [unreadAt, arrive]⟩

theorem contentAt_arrive_of_some {x y : α} (h : q.contentAt n = some y) :
    (q.arrive x).contentAt n = some y := by
  obtain ⟨held, hheld, -⟩ := Option.map_eq_some_iff.mp h
  have hn := (List.getElem?_eq_some_iff.mp hheld).1
  simpa [contentAt, arrive, List.getElem?_append_left hn] using h

theorem unreadAt_arrive_of_content {x y : α} (h : q.contentAt n = some y) :
    (q.arrive x).unreadAt n = q.unreadAt n := by
  obtain ⟨held, hheld, -⟩ := Option.map_eq_some_iff.mp h
  have hn := (List.getElem?_eq_some_iff.mp hheld).1
  simp [unreadAt, arrive, List.getElem?_append_left hn]

theorem readAt_arrive (x : α) (h : q.readAt n = true) : (q.arrive x).readAt n = true := by
  obtain ⟨held, hheld, hread⟩ := (Option.any_eq_true _ _).mp h
  have hn := (List.getElem?_eq_some_iff.mp hheld).1
  simp [readAt, arrive, List.getElem?_append_left hn, hheld, hread]

/-! ## Marking -/

variable (places : List Nat)

@[simp] theorem contentAt_markSeen : (q.markSeen places).contentAt n = q.contentAt n := by
  simp only [contentAt, markSeen, List.getElem?_mapIdx, Option.map_map]
  congr 1
  funext held
  by_cases hn : n ∈ places <;> simp [hn]

@[simp] theorem unreadAt_markSeen :
    (q.markSeen places).unreadAt n = (q.unreadAt n && !decide (n ∈ places)) := by
  simp only [unreadAt, markSeen, List.getElem?_mapIdx, Option.any_map]
  by_cases hn : n ∈ places <;> cases q.messages[n]? <;> simp [hn]

theorem readAt_markSeen (h : q.readAt n = true) : (q.markSeen places).readAt n = true := by
  obtain ⟨held, hheld, hread⟩ := (Option.any_eq_true _ _).mp h
  by_cases hn : n ∈ places
  · simp [readAt, markSeen, hheld, hn]
  · simpa [readAt, markSeen, hheld, hn] using hread

theorem readAt_markSeen_of_mem (hn : n ∈ places) (h : q.unreadAt n = true) :
    (q.markSeen places).readAt n = true := by
  obtain ⟨held, hheld, -⟩ := (Option.any_eq_true _ _).mp h
  simp [readAt, markSeen, hheld, hn]

/-- Marking again what has been marked does nothing. -/
theorem markSeen_markSeen {more : List Nat} (h : ∀ n ∈ more, n ∈ places) :
    (q.markSeen places).markSeen more = q.markSeen places := by
  unfold markSeen
  congr 1
  rw [List.mapIdx_mapIdx]
  refine congrArg (List.mapIdx · q.messages) (funext fun n => funext fun held => ?_)
  by_cases hn : n ∈ more
  · simp [hn, h n hn]
  · simp [hn]

theorem unseen_markSeen : (q.markSeen places).unseen = q.unseen.filter fun n => n ∉ places := by
  have hlength : (q.markSeen places).messages.length = q.messages.length := by simp [markSeen]
  rw [unseen, unseen, hlength, List.filter_filter]
  exact List.filter_congr fun n _ => by simp [Bool.and_comm]

theorem unseen_markSeen_le : (q.markSeen places).unseen.length ≤ q.unseen.length := by
  rw [unseen_markSeen]
  exact List.length_filter_le _ _

/-- Who marks the newest has so many fewer unseen messages. -/
theorem unseen_markSeen_newest (q : UnreadQueue α) (limit : Nat) :
    (q.markSeen (q.newest limit)).unseen.length = q.unseen.length - limit := by
  have hsplit := List.take_append_drop (q.unseen.length - limit) q.unseen
  have hnodup : (q.unseen.take (q.unseen.length - limit) ++ q.newest limit).Nodup := by
    rw [newest, hsplit]
    exact q.unseen_nodup
  have hfront : (q.unseen.take (q.unseen.length - limit)).filter (fun n => n ∉ q.newest limit) =
      q.unseen.take (q.unseen.length - limit) := by
    refine List.filter_eq_self.mpr fun n hn => ?_
    simpa using fun hlate => (List.disjoint_of_nodup_append hnodup) hn hlate
  have hback : (q.newest limit).filter (fun n => n ∉ q.newest limit) = [] := by
    refine List.filter_eq_nil_iff.mpr fun n hn => ?_
    simpa using hn
  rw [unseen_markSeen]
  conv_lhs => rw [← hsplit]
  rw [List.filter_append, hfront, show q.unseen.drop (q.unseen.length - limit) = q.newest limit
    from rfl, hback, List.append_nil, List.length_take]
  exact Nat.min_eq_left (Nat.sub_le _ _)

end UnreadQueue

end MailCue.Lib
