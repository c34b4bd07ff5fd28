/-
What the functions of `common/list.h` do to a list of records: the search
finds what a search of the entries finds, and an entry that is added,
deleted or written to is the only one that changes.
-/
import CephInC.Common.Records
import CephInC.Common.Proofs.ListHead

namespace CephInC

open Lib

variable {ρ α : Type} {m : Records ρ} {head turns : Nat} {entries pre post : List (Nat × ρ)}

theorem onNodes_run {x : Prog ListHeap α} {a : α} {nodes : ListHeap}
    (h : x m.nodes = .ok (a, nodes)) : onNodes x m = .ok (a, { m with nodes := nodes }) := by
  unfold onNodes
  rw [h]

theorem recordAt_run {p : Nat} {r : ρ} (h : m.recs p = some r) :
    recordAt p m = .ok (r, m) := by
  unfold recordAt
  rw [h]

theorem recordPut_run {p : Nat} (r : ρ) (h : (m.recs p).isSome) :
    recordPut p r m = .ok ((), { m with recs := Function.update m.recs p (some r) }) := if_pos h

theorem recordFree_run {p : Nat} (h : (m.recs p).isSome) :
    recordFree p m
      = .ok ((), ⟨Function.update m.nodes p none, Function.update m.recs p none⟩) := if_pos h

-- ============================================================== search

theorem forEachIn_first {test : ρ → Bool} : ∀ {entries : List (Nat × ρ)},
    (∀ entry ∈ entries, m.recs entry.1 = some entry.2) →
    forEachIn (fun pos => do return test (← recordAt pos)) (entries.map Prod.fst) m
      = .ok ((entries.find? fun entry => test entry.2).map Prod.fst, m)
  | [], _ => rfl
  | (a, r) :: entries, h => by
      have hbody : (do return test (← recordAt a) : Prog (Records ρ) Bool) m
          = .ok (test r, m) := by
        rw [bind_ok (recordAt_run (h (a, r) List.mem_cons_self))]
        rfl
      rw [List.map_cons, forEachIn, bind_ok hbody]
      cases ht : test r with
      | true =>
          rw [List.find?_cons_of_pos (by exact ht)]
          rfl
      | false =>
          rw [List.find?_cons_of_neg (by rw [ht]; exact Bool.false_ne_true)]
          exact forEachIn_first fun entry hentry => h entry (List.mem_cons_of_mem _ hentry)

/-- The search of the source is the search of the entries. -/
theorem listFirst_run (h : m.Lists head entries) (hturns : entries.length < turns)
    (test : ρ → Bool) :
    listFirst test head turns m
      = .ok ((entries.find? fun entry => test entry.2).map Prod.fst, m) := by
  have hkeeps : KeepsNodes Records.nodes
      (fun pos => do return test (← recordAt (ρ := ρ) pos)) := by
    intro pos s b s' hbody
    obtain ⟨r, mid, hread, hret⟩ := bind_eq_ok hbody
    cases hret
    unfold recordAt at hread
    cases hr : s.recs pos with
    | none =>
        rw [hr] at hread
        cases hread
    | some r' =>
        rw [hr] at hread
        cases hread
        rfl
  have hloop : listForEach Records.nodes (fun pos => do return test (← recordAt pos)) head turns m
      = .ok (((entries.find? fun entry => test entry.2).map Prod.fst).getD head, m) := by
    rw [listForEach_run hkeeps h.ring (by rw [List.length_map]; exact hturns),
      bind_ok (forEachIn_first h.recs)]
    rfl
  unfold listFirst
  rw [bind_ok hloop]
  cases hfind : entries.find? fun entry => test entry.2 with
  | none =>
      show (.ok (if head = head then none else some head, m) : Except Fault _) = _
      rw [if_pos rfl]
      rfl
  | some entry =>
      have hne : entry.1 ≠ head := by
        rintro heq
        refine h.ring.head_notMem ?_
        rw [← heq]
        exact List.mem_map_of_mem (List.mem_of_find?_eq_some hfind)
      show (.ok (if entry.1 = head then none else some entry.1, m) : Except Fault _) = _
      rw [if_neg hne]
      rfl

-- ============================================================ changes

/-- An address at which there is nothing is in no list. -/
theorem Records.Lists.fresh (h : m.Lists head entries) {a : Nat} (ha : m.nodes a = none) :
    a ∉ head :: entries.map Prod.fst := by
  intro hmem
  have hthere := h.ring.run.isSome a hmem
  rw [ha] at hthere
  cases hthere

/-- A new record is filled in and added to the list. -/
theorem Records.Lists.add (h : m.Lists head entries) {a : Nat} (ha : m.nodes a = none) (r : ρ)
    (junk : Links Nat) :
    ∃ m', (do recordNew a r junk; onNodes (listAdd a head) : Prog (Records ρ) Unit) m
        = .ok ((), m')
      ∧ m'.Lists head ((a, r) :: entries)
      ∧ (∀ c, (m'.nodes c).isSome = (Function.update m.nodes a (some junk) c).isSome)
      ∧ m'.recs = Function.update m.recs a (some r) := by
  have hout := h.fresh ha
  have hring : LinkHeap.Ring (Function.update m.nodes a (some junk)) head
      (entries.map Prod.fst) := by
    refine h.ring.congr fun c hc => Function.update_of_ne ?_ _ _
    rintro rfl
    exact hout hc
  have hthere : (Function.update m.nodes a (some junk) a).isSome := by
    rw [Function.update_self]
    rfl
  refine ⟨_, (bind_ok rfl).trans (onNodes_run (listAdd_run hring hthere)),
    ⟨hring.splice hout hthere, ?_⟩, fun c => LinkHeap.splice_isSome _ _ _ c, rfl⟩
  intro entry hentry
  rcases List.mem_cons.mp hentry with rfl | hentry
  · exact Function.update_self _ _ _
  · refine (Function.update_of_ne ?_ _ _).trans (h.recs entry hentry)
    intro heq
    exact hout (heq ▸ List.mem_cons_of_mem head (List.mem_map_of_mem hentry))

/-- The addresses of a list are distinct. -/
theorem Records.Lists.addr_ne {a : Nat} {r : ρ} (h : m.Lists head (pre ++ (a, r) :: post)) :
    ∀ entry ∈ pre ++ post, entry.1 ≠ a := by
  intro entry hentry heq
  have hdist := h.ring.nodup
  rw [List.map_append, List.map_cons, List.nodup_middle, ← List.map_append] at hdist
  have hmem : entry.1 ∈ (pre ++ post).map Prod.fst := List.mem_map_of_mem hentry
  exact (List.nodup_cons.mp hdist).1 (heq ▸ hmem)

/-- An entry is deleted; its record stays where it is. -/
theorem Records.Lists.delete {a : Nat} {r : ρ} (h : m.Lists head (pre ++ (a, r) :: post)) :
    ∃ nodes, onNodes (listDelete a) m = .ok ((), { m with nodes := nodes })
      ∧ Records.Lists { m with nodes := nodes } head (pre ++ post)
      ∧ (∀ c, (nodes c).isSome = (m.nodes c).isSome) ∧ m.recs a = some r := by
  have hring : m.nodes.Ring head (pre.map Prod.fst ++ a :: post.map Prod.fst) := by
    have hr := h.ring
    rwa [List.map_append, List.map_cons] at hr
  refine ⟨_, onNodes_run (listDelete_run hring), ⟨?_, ?_⟩, ?_,
    h.recs (a, r) (List.mem_append_right pre List.mem_cons_self)⟩
  · rw [List.map_append]
    exact ring_deleted hring (some poisoned)
  · intro entry hentry
    refine h.recs entry ?_
    rcases List.mem_append.mp hentry with hentry | hentry
    · exact List.mem_append_left _ hentry
    · exact List.mem_append_right pre (List.mem_cons_of_mem _ hentry)
  · intro c
    by_cases hc : c = a
    · subst hc
      rw [Function.update_self, ring_entry_links hring]
      rfl
    · rw [Function.update_of_ne hc, LinkHeap.join_isSome]

/-- Memory off the list is freed. -/
theorem Records.Lists.free (h : m.Lists head entries) {a : Nat}
    (ha : a ∉ head :: entries.map Prod.fst) :
    Records.Lists ⟨Function.update m.nodes a none, Function.update m.recs a none⟩ head
      entries := by
  refine ⟨h.ring.congr fun c hc => Function.update_of_ne ?_ _ _, ?_⟩
  · rintro rfl
    exact ha hc
  · intro entry hentry
    refine (Function.update_of_ne ?_ _ _).trans (h.recs entry hentry)
    intro heq
    exact ha (heq ▸ List.mem_cons_of_mem head (List.mem_map_of_mem hentry))

/-- The fields of one entry are written. -/
theorem Records.Lists.put {a : Nat} {r : ρ} (h : m.Lists head (pre ++ (a, r) :: post)) (r' : ρ) :
    recordPut a r' m = .ok ((), { m with recs := Function.update m.recs a (some r') })
      ∧ Records.Lists { m with recs := Function.update m.recs a (some r') } head
        (pre ++ (a, r') :: post) := by
  have ha : m.recs a = some r := h.recs (a, r) (List.mem_append_right pre List.mem_cons_self)
  refine ⟨recordPut_run r' (by rw [ha]; rfl), ?_, ?_⟩
  · have hr := h.ring
    rw [List.map_append, List.map_cons] at hr ⊢
    exact hr
  · intro entry hentry
    rw [List.mem_append, List.mem_cons] at hentry
    by_cases heq : entry = (a, r')
    · rw [heq]
      exact Function.update_self _ _ _
    · have hrest : entry ∈ pre ++ post := by
        rcases hentry with hentry | hentry | hentry
        · exact List.mem_append_left post hentry
        · exact absurd hentry heq
        · exact List.mem_append_right pre hentry
      refine (Function.update_of_ne (h.addr_ne entry hrest) _ _).trans (h.recs entry ?_)
      rcases List.mem_append.mp hrest with hin | hin
      · exact List.mem_append_left _ hin
      · exact List.mem_append_right pre (List.mem_cons_of_mem _ hin)

end CephInC
