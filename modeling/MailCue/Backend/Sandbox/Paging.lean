import Mathlib
import MailCue.Backend.Sandbox.Service
import MailCue.Lib.Paging

/-!
# Paging through the messages of all providers

`list_messages` asks each provider of the user for a page of its messages, merges the
answers and cuts the result to the page size. Where messages of a provider are of one
time the database may answer each query in an order of its own.
-/
namespace MailCue.Backend.Sandbox
open MailCue.Lib
open MailCue.Lib.Paging (InOrder Untied slice)

def messagesOf (db : Database) (provider_id : String) : List SandboxMessage :=
  db.messages.rows.filter fun row => row.provider_id == provider_id

/-- The messages of each provider in an order that `order_by(created_at)` allows. -/
structure Arrangement (db : Database) where
  rows : String → List SandboxMessage
  perm : ∀ provider_id, (rows provider_id).Perm (messagesOf db provider_id)
  inOrder : ∀ provider_id, InOrder SandboxMessage.created_at (rows provider_id)

section
variable {db : Database} (user_id : String) (page : Page)

/-- The pages of the providers, one after the other. -/
def Arrangement.candidates (order : Arrangement db) : List SandboxMessage :=
  (getProviders db user_id).flatMap fun provider =>
    ((order.rows provider.id).drop page.offset).take page.limit

/-- `list_messages` without a `provider_id`: the messages and the total. -/
def Arrangement.listMessages (order : Arrangement db) : List SandboxMessage × Nat :=
  (((order.candidates user_id page).insertionSort fun a b => a.created_at ≤ b.created_at).take
      page.limit,
    ((getProviders db user_id).map fun provider => (messagesOf db provider.id).length).sum)

def Page.nth (page : Page) (k : Nat) : Page := { page with offset := k * page.limit }

/-- The first pages of one size, each of an answer of its own. -/
def listed (answers : Nat → Arrangement db) (pages : Nat) : List SandboxMessage :=
  (List.range pages).flatMap fun k => ((answers k).listMessages user_id (page.nth k)).1

variable (db)

def userMessages : List SandboxMessage :=
  db.messages.rows.filter fun row =>
    (getProviders db user_id).any fun provider => provider.id == row.provider_id

/-- However the database answers, enough pages are the messages of the user, each once and in
the order of their creation. -/
def PagesComplete : Prop :=
  ∀ (answers : Nat → Arrangement db) pages, (userMessages db user_id).length ≤ pages * page.limit →
    (listed user_id page answers pages).Perm (userMessages db user_id) ∧
      InOrder SandboxMessage.created_at (listed user_id page answers pages)

/-- All messages are on the first page, or they are of one provider and none of one time are
on two pages. -/
def OnePageOrProvider : Prop :=
  (userMessages db user_id).length ≤ page.limit ∨
    ∃ provider ∈ getProviders db user_id,
      (∀ other ∈ getProviders db user_id, other ≠ provider → messagesOf db other.id = []) ∧
        Untied SandboxMessage.created_at (messagesOf db provider.id) page.limit

end

/-! ## The order of the table -/

def inTableOrder (db : Database) : Arrangement db where
  rows provider_id :=
    (messagesOf db provider_id).insertionSort fun a b => a.created_at ≤ b.created_at
  perm _ := List.perm_insertionSort _ _
  inOrder _ := List.pairwise_insertionSort _ _

theorem listMessages_inTableOrder (db : Database) (user_id : String) (page : Page) :
    listMessages db user_id page = .messages ((inTableOrder db).listMessages user_id page).1
      ((inTableOrder db).listMessages user_id page).2 := by
  simp [listMessages, Arrangement.listMessages, Arrangement.candidates, getMessages, inTableOrder,
    messagesOf, List.flatMap_map, Function.comp_def]

/-! ## Whose messages they are -/

section
variable {db : Database} {user_id : String} {page : Page}

theorem nodup_messages : db.messages.rows.Nodup := List.Nodup.of_map _ db.messages.nodup

theorem nodup_userMessages : (userMessages db user_id).Nodup := nodup_messages.filter _

theorem nodup_providers : (getProviders db user_id).Nodup :=
  (List.Nodup.of_map _ db.providers.nodup).filter _

theorem provider_eq_of_id {provider other : SandboxProvider}
    (h : provider ∈ getProviders db user_id) (hother : other ∈ getProviders db user_id)
    (hid : provider.id = other.id) : provider = other :=
  List.inj_on_of_nodup_map db.providers.nodup (List.mem_of_mem_filter h)
    (List.mem_of_mem_filter hother) hid

theorem provider_id_of_mem {provider_id : String} {message : SandboxMessage}
    (h : message ∈ messagesOf db provider_id) : message.provider_id = provider_id := by
  simpa using (List.mem_filter.mp h).2

theorem messagesOf_perm :
    ((getProviders db user_id).flatMap fun provider => messagesOf db provider.id).Perm
      (userMessages db user_id) := by
  have hnodup : ((getProviders db user_id).flatMap fun provider =>
      messagesOf db provider.id).Nodup := by
    refine List.nodup_flatMap.mpr ⟨fun _ _ => nodup_messages.filter _, ?_⟩
    refine nodup_providers.pairwise_of_forall_ne fun provider h other hother hne => ?_
    intro message hmessage hmessage'
    exact hne (provider_eq_of_id h hother
      ((provider_id_of_mem hmessage).symm.trans (provider_id_of_mem hmessage')))
  refine (List.perm_ext_iff_of_nodup hnodup nodup_userMessages).mpr fun message => ?_
  simp only [List.mem_flatMap, messagesOf, userMessages, List.mem_filter, List.any_eq_true,
    beq_iff_eq]
  constructor
  · rintro ⟨provider, h, hmem, hid⟩
    exact ⟨hmem, provider, h, hid.symm⟩
  · rintro ⟨hmem, provider, h, hid⟩
    exact ⟨provider, h, hmem, hid.symm⟩

variable (order : Arrangement db)

theorem Arrangement.rows_perm :
    ((getProviders db user_id).flatMap fun provider => order.rows provider.id).Perm
      (userMessages db user_id) :=
  (List.Perm.flatMap_left _ fun provider _ => order.perm provider.id).trans messagesOf_perm

/-- The total says how many messages the user has. -/
theorem Arrangement.total_eq :
    (order.listMessages user_id page).2 = (userMessages db user_id).length := by
  rw [← messagesOf_perm.length_eq, List.length_flatMap]
  rfl

theorem Arrangement.candidates_sublist :
    (order.candidates user_id page).Sublist
      ((getProviders db user_id).flatMap fun provider => order.rows provider.id) :=
  List.Sublist.flatMap_right _ fun _ _ => (List.take_sublist _ _).trans (List.drop_sublist _ _)

theorem Arrangement.nodup_candidates : (order.candidates user_id page).Nodup :=
  (order.rows_perm.nodup_iff.mpr nodup_userMessages).sublist order.candidates_sublist

theorem Arrangement.nodup_rows (provider_id : String) : (order.rows provider_id).Nodup :=
  (order.perm provider_id).nodup_iff.mpr (nodup_messages.filter _)

theorem Arrangement.mem_candidates {message : SandboxMessage} {provider : SandboxProvider}
    (h : provider ∈ getProviders db user_id) (hmessage : message ∈ order.rows provider.id)
    (hcandidate : message ∈ order.candidates user_id page) :
    message ∈ ((order.rows provider.id).drop page.offset).take page.limit := by
  obtain ⟨other, hother, hmem⟩ := List.mem_flatMap.mp hcandidate
  have hrow : message ∈ order.rows other.id := List.mem_of_mem_drop (List.mem_of_mem_take hmem)
  have hid := provider_id_of_mem ((order.perm _).mem_iff.mp hmessage)
  have hid' := provider_id_of_mem ((order.perm _).mem_iff.mp hrow)
  rwa [← provider_eq_of_id h hother (hid.symm.trans hid')] at hmem

/-! ## Pages that fit together -/

theorem messagesOf_length_le {provider : SandboxProvider} (h : provider ∈ getProviders db user_id) :
    (messagesOf db provider.id).length ≤ (userMessages db user_id).length := by
  rw [← messagesOf_perm.length_eq, List.flatMap_def]
  exact (List.sublist_flatten_of_mem
    (List.mem_map_of_mem (f := fun provider => messagesOf db provider.id) h)).length_le

theorem Arrangement.mem_page {message : SandboxMessage}
    (h : message ∈ (order.listMessages user_id page).1) :
    message ∈ order.candidates user_id page :=
  (List.mem_insertionSort _).mp (List.mem_of_mem_take h)

/-- A page of so many candidates is these in the order of their creation. -/
theorem Arrangement.page_eq (h : (order.candidates user_id page).length ≤ page.limit) :
    (order.listMessages user_id page).1 =
      (order.candidates user_id page).insertionSort fun a b => a.created_at ≤ b.created_at :=
  List.take_of_length_le ((List.length_insertionSort _ _).le.trans h)

theorem complete_of_one_page (h : (userMessages db user_id).length ≤ page.limit) :
    PagesComplete db user_id page := by
  intro answers pages hpages
  have hlong : ∀ k, ∀ provider ∈ getProviders db user_id,
      ((answers k).rows provider.id).length ≤ page.limit := by
    intro k provider hprovider
    rw [((answers k).perm provider.id).length_eq]
    exact (messagesOf_length_le hprovider).trans h
  have hfirst : ((answers 0).listMessages user_id (page.nth 0)).1.Perm (userMessages db user_id) ∧
      InOrder SandboxMessage.created_at ((answers 0).listMessages user_id (page.nth 0)).1 := by
    have hall : (answers 0).candidates user_id (page.nth 0) =
        (getProviders db user_id).flatMap fun provider => (answers 0).rows provider.id := by
      refine List.flatMap_congr fun provider hprovider => ?_
      rw [Page.nth, Nat.zero_mul, List.drop_zero,
        List.take_of_length_le (hlong 0 provider hprovider)]
    have hperm : ((answers 0).candidates user_id (page.nth 0)).Perm (userMessages db user_id) :=
      hall ▸ (answers 0).rows_perm
    rw [(answers 0).page_eq (hperm.length_eq.le.trans h)]
    exact ⟨(List.perm_insertionSort _ _).trans hperm, List.pairwise_insertionSort _ _⟩
  have hrest : ∀ k, ((answers (k + 1)).listMessages user_id (page.nth (k + 1))).1 = [] := by
    intro k
    refine List.eq_nil_iff_forall_not_mem.mpr fun message hmem => ?_
    obtain ⟨provider, hprovider, hslice⟩ := List.mem_flatMap.mp ((answers (k + 1)).mem_page hmem)
    have hnone : ((answers (k + 1)).rows provider.id).drop ((k + 1) * page.limit) = [] :=
      List.drop_eq_nil_of_le ((hlong (k + 1) provider hprovider).trans
        (Nat.le_mul_of_pos_left _ k.succ_pos))
    rw [Page.nth, hnone] at hslice
    simp at hslice
  cases pages with
  | zero =>
    have hnil : userMessages db user_id = [] := List.length_eq_zero_iff.mp (by omega)
    simp [listed, hnil, InOrder]
  | succ n =>
    have hlisted : listed user_id page answers (n + 1) =
        ((answers 0).listMessages user_id (page.nth 0)).1 := by
      rw [listed, List.range_succ_eq_map, List.flatMap_cons, List.flatMap_map]
      simp [hrest]
    rw [hlisted]
    exact hfirst

section
variable {provider : SandboxProvider} (hprovider : provider ∈ getProviders db user_id)
  (hothers : ∀ other ∈ getProviders db user_id, other ≠ provider → messagesOf db other.id = [])
include hprovider hothers

theorem flatMap_of_others {α : Type} (f : SandboxProvider → List α)
    (hf : ∀ other, messagesOf db other.id = [] → f other = []) :
    (getProviders db user_id).flatMap f = f provider := by
  obtain ⟨front, back, hsplit⟩ := List.append_of_mem hprovider
  have hnodup : (getProviders db user_id).Nodup := nodup_providers
  rw [hsplit] at hnodup hothers ⊢
  have hdisjoint := (List.nodup_append.mp hnodup).2.2
  have hnotback := (List.nodup_cons.mp (List.nodup_append.mp hnodup).2.1).1
  have hfront : front.flatMap f = [] := List.flatMap_eq_nil_iff.mpr fun other h =>
    hf other (hothers other (by simp [h]) (hdisjoint other h provider List.mem_cons_self))
  have hback : back.flatMap f = [] := List.flatMap_eq_nil_iff.mpr fun other h =>
    hf other (hothers other (by simp [h]) fun heq => hnotback (heq ▸ h))
  rw [List.flatMap_append, List.flatMap_cons, hfront, hback, List.nil_append, List.append_nil]

/-- Pages of a user with messages of one provider are those of the provider. -/
theorem Arrangement.page_of_others (k : Nat) :
    (order.listMessages user_id (page.nth k)).1 =
      slice (order.rows provider.id) page.limit k := by
  have hcandidates : order.candidates user_id (page.nth k) =
      slice (order.rows provider.id) page.limit k := by
    refine flatMap_of_others hprovider hothers _ fun other hnone => ?_
    have hrows := order.perm other.id
    rw [hnone] at hrows
    rw [hrows.eq_nil]
    simp
  rw [order.page_eq (by rw [hcandidates]; exact Paging.length_slice_le), hcandidates]
  exact List.Pairwise.insertionSort_eq ((order.inOrder provider.id).sublist Paging.slice_sublist)

theorem userMessages_perm_of_others :
    (messagesOf db provider.id).Perm (userMessages db user_id) := by
  have hsingle := flatMap_of_others hprovider hothers (fun other => messagesOf db other.id)
    fun _ hnone => hnone
  rw [← hsingle]
  exact messagesOf_perm

theorem complete_of_others (huntied : Untied SandboxMessage.created_at (messagesOf db provider.id)
    page.limit) : PagesComplete db user_id page := by
  intro answers pages hpages
  have hlisted : listed user_id page answers pages =
      (List.range pages).flatMap fun k => slice ((answers k).rows provider.id) page.limit k :=
    List.flatMap_congr fun k _ => (answers k).page_of_others hprovider hothers k
  have hperm := userMessages_perm_of_others hprovider hothers
  have hpages : ((answers 0).rows provider.id).length ≤ pages * page.limit := by
    rw [((answers 0).perm provider.id).length_eq, hperm.length_eq]
    exact hpages
  rw [hlisted]
  constructor
  · refine (Paging.pages_perm (fun k => (answers k).inOrder provider.id)
      (fun k => (answers k).perm provider.id) huntied pages 0).trans ?_
    rw [List.take_of_length_le hpages]
    exact ((answers 0).perm provider.id).trans hperm
  · exact Paging.pages_inOrder (fun k => (answers k).inOrder provider.id)
      (fun k => (answers k).perm provider.id) huntied pages

end

/-! ## Pages that do not -/

/-- No two pages share a message, however they are answered. -/
theorem disjoint_of_complete (h : PagesComplete db user_id page) (answers : Nat → Arrangement db)
    {i j : Nat} (hij : i < j) :
    List.Disjoint ((answers i).listMessages user_id (page.nth i)).1
      ((answers j).listMessages user_id (page.nth j)).1 := by
  have henough : (userMessages db user_id).length ≤
      ((userMessages db user_id).length + j + 1) * page.limit :=
    (by omega : _ ≤ (userMessages db user_id).length + j + 1).trans
      (Nat.le_mul_of_pos_right _ page.limit_ge)
  have hnodup := (h answers _ henough).1.nodup_iff.mpr nodup_userMessages
  have hpairs := List.pairwise_iff_getElem.mp (List.nodup_flatMap.mp hnodup).2 i j
    (by rw [List.length_range]; omega) (by rw [List.length_range]; omega) hij
  simpa using hpairs

/-- The answer for one provider in another order. -/
def Arrangement.reorder (provider_id : String) (rows : List SandboxMessage)
    (hperm : rows.Perm (messagesOf db provider_id))
    (hinOrder : InOrder SandboxMessage.created_at rows) : Arrangement db where
  rows id := if id = provider_id then rows else order.rows id
  perm id := by
    split
    · subst id
      exact hperm
    · exact order.perm id
  inOrder id := by
    split
    · exact hinOrder
    · exact order.inOrder id

theorem not_complete_of_tied {provider : SandboxProvider}
    (hprovider : provider ∈ getProviders db user_id)
    (hothers : ∀ other ∈ getProviders db user_id, other ≠ provider → messagesOf db other.id = [])
    (htied : ¬ Untied SandboxMessage.created_at (messagesOf db provider.id) page.limit) :
    ¬ PagesComplete db user_id page := by
  intro hcomplete
  have hperm := (inTableOrder db).perm provider.id
  simp only [Untied, not_forall, not_not] at htied
  obtain ⟨k, t, hlow, hhigh⟩ := htied
  rw [← hperm.countP_eq] at hlow hhigh
  obtain ⟨front, a, b, back, hrows, hcut, hswapped⟩ :=
    ((inTableOrder db).inOrder provider.id).exists_swap hlow hhigh
  have hreordered : (front ++ b :: a :: back).Perm (messagesOf db provider.id) :=
    ((List.Perm.swap a b back).append_left front).trans (hrows ▸ hperm)
  obtain ⟨m, rfl⟩ : ∃ m, k = m + 1 := Nat.exists_eq_succ_of_ne_zero (by rintro rfl; omega)
  let swapped := (inTableOrder db).reorder provider.id _ hreordered hswapped
  have hdisjoint := disjoint_of_complete hcomplete
    (fun i => if i = m + 1 then swapped else inTableOrder db) (Nat.lt_add_one m)
  rw [if_neg (Nat.ne_of_lt (Nat.lt_add_one m)), if_pos rfl,
    Arrangement.page_of_others _ hprovider hothers,
    Arrangement.page_of_others _ hprovider hothers] at hdisjoint
  have hswap : swapped.rows provider.id = (front ++ [b]) ++ a :: back := by
    simp [swapped, Arrangement.reorder]
  have hlimit := page.limit_ge
  have hsucc : (m + 1) * page.limit = m * page.limit + page.limit := by
    rw [Nat.add_mul, Nat.one_mul]
  have hsucc' : (m + 1 + 1) * page.limit = (m + 1) * page.limit + page.limit := by
    rw [Nat.add_mul, Nat.one_mul]
  refine hdisjoint (a := a) ?_ ?_
  · rw [hrows]
    exact Paging.mem_slice (by omega) (by omega)
  · rw [hswap]
    exact Paging.mem_slice (by rw [List.length_append, List.length_singleton]; omega)
      (by rw [List.length_append, List.length_singleton]; omega)

/-- With messages of two providers the first page has more candidates than places. -/
theorem Arrangement.limit_lt_candidates
    (hmany : page.limit < (userMessages db user_id).length)
    (hothers : ∀ provider ∈ getProviders db user_id, ∃ other ∈ getProviders db user_id,
      other ≠ provider ∧ messagesOf db other.id ≠ []) :
    page.limit < (order.candidates user_id (page.nth 0)).length := by
  by_cases hlong : ∃ provider ∈ getProviders db user_id,
      page.limit ≤ (order.rows provider.id).length
  · obtain ⟨provider, hprovider, hlength⟩ := hlong
    obtain ⟨other, hother, hne, hrows⟩ := hothers provider hprovider
    obtain ⟨front, back, hsplit⟩ := List.append_of_mem hprovider
    have hplace : other ∈ front ++ back := by
      rw [hsplit] at hother
      simpa [hne] using hother
    have hrest : 0 < ((front ++ back).flatMap fun provider =>
        ((order.rows provider.id).drop 0).take page.limit).length := by
      refine List.length_pos_iff.mpr fun hnil => ?_
      have hnone := List.flatMap_eq_nil_iff.mp hnil other hplace
      rw [List.drop_zero, List.take_eq_nil_iff] at hnone
      rcases hnone with hzero | hnone
      · exact absurd hzero (Nat.ne_of_gt page.limit_ge)
      · exact hrows (List.nil_perm.mp (hnone ▸ order.perm other.id))
    have hsize : (((order.rows provider.id).drop 0).take page.limit).length = page.limit := by
      rw [List.drop_zero, List.length_take]
      omega
    simp only [Arrangement.candidates, Page.nth, Nat.zero_mul, hsplit, List.flatMap_append,
      List.flatMap_cons, List.length_append] at hrest ⊢
    omega
  · have hall : order.candidates user_id (page.nth 0) =
        (getProviders db user_id).flatMap fun provider => order.rows provider.id := by
      refine List.flatMap_congr fun provider hprovider => ?_
      have hshort : (order.rows provider.id).length ≤ page.limit :=
        (Nat.lt_of_not_le fun hle => hlong ⟨provider, hprovider, hle⟩).le
      rw [Page.nth, Nat.zero_mul, List.drop_zero, List.take_of_length_le hshort]
    rw [hall, order.rows_perm.length_eq]
    exact hmany

/-- A candidate that the first page has no place for is on no later one. -/
theorem not_complete_of_crowded
    (h : page.limit < ((inTableOrder db).candidates user_id (page.nth 0)).length) :
    ¬ PagesComplete db user_id page := by
  intro hcomplete
  have hsorted := List.length_insertionSort
    (fun a b : SandboxMessage => a.created_at ≤ b.created_at)
    ((inTableOrder db).candidates user_id (page.nth 0))
  have hnodup := (List.perm_insertionSort (fun a b : SandboxMessage => a.created_at ≤ b.created_at)
    ((inTableOrder db).candidates user_id (page.nth 0))).nodup_iff.mpr
      (inTableOrder db).nodup_candidates
  obtain ⟨message, hdropped⟩ := List.exists_mem_of_length_pos (l :=
    (((inTableOrder db).candidates user_id (page.nth 0)).insertionSort
      fun a b => a.created_at ≤ b.created_at).drop page.limit) (by rw [List.length_drop]; omega)
  have hcandidate : message ∈ (inTableOrder db).candidates user_id (page.nth 0) :=
    (List.mem_insertionSort _).mp (List.mem_of_mem_drop hdropped)
  obtain ⟨provider, hprovider, hslice⟩ := List.mem_flatMap.mp hcandidate
  have hrow : message ∈ (inTableOrder db).rows provider.id :=
    List.mem_of_mem_drop (List.mem_of_mem_take hslice)
  have henough := (hcomplete (fun _ => inTableOrder db) (userMessages db user_id).length
    (Nat.le_mul_of_pos_right _ page.limit_ge)).1
  have hlisted := henough.mem_iff.mpr ((inTableOrder db).rows_perm.mem_iff.mp
    (List.mem_flatMap.mpr ⟨provider, hprovider, hrow⟩))
  obtain ⟨k, -, hpage⟩ := List.mem_flatMap.mp hlisted
  cases k with
  | zero => exact List.disjoint_take_drop hnodup le_rfl hpage hdropped
  | succ k =>
    have hlater := (inTableOrder db).mem_candidates hprovider hrow
      ((inTableOrder db).mem_page hpage)
    have hfirst : message ∈ ((inTableOrder db).rows provider.id).take page.limit := by
      simpa [Page.nth] using hslice
    exact List.disjoint_take_drop ((inTableOrder db).nodup_rows provider.id)
      (Nat.le_mul_of_pos_left page.limit k.succ_pos) hfirst (List.mem_of_mem_take hlater)

end

/-! ## Every table of messages -/

/-- **The pages of all providers are complete** exactly where one page holds all messages, or
one provider has them all and no two of one time are on two pages. -/
theorem pagesComplete_iff (db : Database) (user_id : String) (page : Page) :
    PagesComplete db user_id page ↔ OnePageOrProvider db user_id page := by
  constructor
  · intro hcomplete
    by_contra hneither
    simp only [OnePageOrProvider, not_or, not_le, not_exists, not_and] at hneither
    obtain ⟨hmany, hsingle⟩ := hneither
    by_cases halone : ∃ provider ∈ getProviders db user_id, ∀ other ∈ getProviders db user_id,
        other ≠ provider → messagesOf db other.id = []
    · obtain ⟨provider, hprovider, hothers⟩ := halone
      exact not_complete_of_tied hprovider hothers (hsingle provider hprovider hothers) hcomplete
    · have hothers : ∀ provider ∈ getProviders db user_id, ∃ other ∈ getProviders db user_id,
          other ≠ provider ∧ messagesOf db other.id ≠ [] := by
        intro provider hprovider
        by_contra hnone
        refine halone ⟨provider, hprovider, fun other hother hne => ?_⟩
        by_contra hrows
        exact hnone ⟨other, hother, hne, hrows⟩
      exact not_complete_of_crowded ((inTableOrder db).limit_lt_candidates hmany hothers) hcomplete
  · rintro (hone | ⟨provider, hprovider, hothers, huntied⟩)
    · exact complete_of_one_page hone
    · exact complete_of_others hprovider hothers huntied

/-- Two providers with a message each, and a page of one. -/
def twoProviders : Database where
  providers := ⟨[
    { id := "p1", user_id := "alice", provider_type := "slack", name := "A", credentials := []
      created_at := 0 },
    { id := "p2", user_id := "alice", provider_type := "slack", name := "B", credentials := []
      created_at := 0 }], by decide⟩
  conversations := .empty
  messages := ⟨[
    { id := "m1", provider_id := "p1", conversation_id := none, direction := "inbound"
      sender := "x", content := some "1", created_at := 1 },
    { id := "m2", provider_id := "p2", conversation_id := none, direction := "inbound"
      sender := "x", content := some "2", created_at := 2 }], by decide⟩
  endpoints := .empty
  deliveries := .empty
  resources := .empty

theorem second_message_not_listed :
    ¬ ∀ (db : Database) user_id page, PagesComplete db user_id page := by
  intro h
  have hcomplete := (h twoProviders "alice" { limit := 1 } (fun _ => inTableOrder twoProviders) 2
    (by decide)).1.length_eq
  exact absurd hcomplete (by decide)

end MailCue.Backend.Sandbox
