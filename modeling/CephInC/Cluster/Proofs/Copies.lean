/-
No server gets a request twice.

A copy is a request and the server it was sent to. `CopiesOk` says of
the copies on their way, processed and counted that none is there twice,
and that none is of a request to a server the thread has yet to send it
to. It needs the entries of the osdmap to lead to different servers.
-/
import CephInC.Client.Proofs.Requests
import CephInC.Cluster.Writes

namespace CephInC

open Lib

/-- The servers the thread has yet to send its request to. -/
def Caller.unsent (osds : List OsdEntity) : Caller → List OsdEntity
  | .numbered _ _ => osds
  | .sending _ _ i _ => osds.drop i
  | _ => []

theorem Caller.wake_unsent (osds : List OsdEntity) (caller : Caller) :
    caller.wake.unsent osds = caller.unsent osds := by
  cases caller <;> rfl

variable {Osd : Type} {reach : OsdEntity → Osd} {osds : List OsdEntity}

structure CopiesOk (reach : OsdEntity → Osd) (osds : List OsdEntity)
    (made : List MsgWriteObjReq) (threads : List Caller)
    (copies : List (Osd × MsgWriteObjReq)) : Prop where
  nodup : copies.Nodup
  made : ∀ c ∈ copies, c.2 ∈ made
  reached : ∀ c ∈ copies, c.1 ∈ osds.map reach
  unsent : ∀ caller ∈ threads, ∀ addr req, caller.held = some (addr, req) →
    ∀ e ∈ caller.unsent osds, (reach e, req) ∉ copies

namespace CopiesOk

variable {made : List MsgWriteObjReq} {threads threads' : List Caller}
variable {copies copies' : List (Osd × MsgWriteObjReq)} {t : Nat} {caller caller' : Caller}

theorem start (reach : OsdEntity → Osd) (osds : List OsdEntity) (threads : List Caller) :
    CopiesOk reach osds [] threads [] where
  nodup := List.nodup_nil
  made _ hc := absurd hc List.not_mem_nil
  reached _ hc := absurd hc List.not_mem_nil
  unsent _ _ _ _ _ _ _ := List.not_mem_nil

/-- A copy goes from one place to another. -/
theorem perm (h : CopiesOk reach osds made threads copies) (hperm : copies.Perm copies') :
    CopiesOk reach osds made threads copies' where
  nodup := hperm.nodup_iff.mp h.nodup
  made c hc := h.made c (hperm.mem_iff.mpr hc)
  reached c hc := h.reached c (hperm.mem_iff.mpr hc)
  unsent caller hcaller addr req hheld e he hc :=
    h.unsent caller hcaller addr req hheld e he (hperm.mem_iff.mpr hc)

/-- A copy is dropped. -/
theorem tail {c : Osd × MsgWriteObjReq} (h : CopiesOk reach osds made threads (c :: copies)) :
    CopiesOk reach osds made threads copies where
  nodup := (List.nodup_cons.mp h.nodup).2
  made c hc := h.made c (List.mem_cons_of_mem _ hc)
  reached c hc := h.reached c (List.mem_cons_of_mem _ hc)
  unsent caller hcaller addr req hheld e he hc :=
    h.unsent caller hcaller addr req hheld e he (List.mem_cons_of_mem _ hc)

/-- The threads have nothing new to send. -/
theorem follow (h : CopiesOk reach osds made threads copies)
    (hsame : ∀ caller' ∈ threads', ∀ addr req, caller'.held = some (addr, req) →
      ∃ caller ∈ threads, caller.held = some (addr, req)
        ∧ ∀ e ∈ caller'.unsent osds, e ∈ caller.unsent osds) :
    CopiesOk reach osds made threads' copies where
  nodup := h.nodup
  made := h.made
  reached := h.reached
  unsent := by
    intro caller' hcaller' addr req hheld' e he
    obtain ⟨caller, hcaller, hheld, hunsent⟩ := hsame caller' hcaller' addr req hheld'
    exact h.unsent caller hcaller addr req hheld e (hunsent e he)

/-- A thread moves on with its request, or without. -/
theorem keep (h : CopiesOk reach osds made threads copies)
    (hmine : threads[t]? = some caller)
    (hheld : ∀ addr req, caller'.held = some (addr, req) → caller.held = some (addr, req))
    (hunsent : ∀ e ∈ caller'.unsent osds, e ∈ caller.unsent osds) :
    CopiesOk reach osds made (threads.set t caller') copies := by
  apply h.follow
  intro caller'' hmem addr req hreq
  rcases List.mem_or_eq_of_mem_set hmem with hmem | rfl
  · exact ⟨caller'', hmem, hreq, fun e he => he⟩
  · exact ⟨caller, List.mem_of_getElem? hmine, hheld addr req hreq, hunsent⟩

/-- A thread makes a request. -/
theorem call (h : CopiesOk reach osds made threads copies) {req : MsgWriteObjReq}
    (hnew : req ∉ made) (addr : Nat) :
    CopiesOk reach osds (made ++ [req]) (threads.set t (.numbered addr req)) copies where
  nodup := h.nodup
  made c hc := List.mem_append_left _ (h.made c hc)
  reached := h.reached
  unsent := by
    intro caller hmem addr' req' hheld e he hc
    rcases List.mem_or_eq_of_mem_set hmem with hmem | rfl
    · exact h.unsent caller hmem addr' req' hheld e he hc
    · cases hheld
      exact hnew (h.made _ hc)

/-- A thread sends its request to the next server. -/
theorem send (h : CopiesOk reach osds made threads copies)
    (hdistinct : (osds.map reach).Nodup) {addr : Nat} {req : MsgWriteObjReq} {i : Nat}
    {n n' : Int32} (hmine : threads[t]? = some (.sending addr req i n)) {e : OsdEntity}
    (he : osds[i]? = some e) (hmade : req ∈ made)
    (hother : ∀ u caller addr' req', threads[u]? = some caller →
      caller.held = some (addr', req') → req' = req → u = t) :
    CopiesOk reach osds made (threads.set t (.sending addr req (i + 1) n'))
      ((reach e, req) :: copies) := by
  obtain ⟨hlt, rfl⟩ := List.getElem?_eq_some_iff.mp he
  have hdrop : osds.drop i = osds[i] :: osds.drop (i + 1) := List.drop_eq_getElem_cons hlt
  have hunsent := h.unsent _ (List.mem_of_getElem? hmine) addr req rfl
  refine ⟨List.nodup_cons.mpr ⟨?_, h.nodup⟩, ?_, ?_, ?_⟩
  · apply hunsent osds[i]
    show osds[i] ∈ osds.drop i
    rw [hdrop]
    exact List.mem_cons_self
  · exact List.forall_mem_cons.mpr ⟨hmade, h.made⟩
  · exact List.forall_mem_cons.mpr ⟨List.mem_map_of_mem (List.getElem_mem hlt), h.reached⟩
  · intro caller hmem addr' req' hheld e' he' hc
    obtain ⟨u, hu⟩ := List.mem_iff_getElem?.mp hmem
    rcases eq_or_ne u t with rfl | hne
    · -- the thread itself has one server less to go
      rw [List.getElem?_set_self (List.getElem?_eq_some_iff.mp hmine).1] at hu
      cases hu
      cases hheld
      have he' : e' ∈ osds.drop (i + 1) := he'
      rcases List.mem_cons.mp hc with hc | hc
      · have hmem : reach e' ∈ (osds.drop (i + 1)).map reach := List.mem_map_of_mem he'
        have hnodup : ((osds.drop i).map reach).Nodup :=
          hdistinct.sublist ((List.drop_sublist i osds).map reach)
        rw [(Prod.mk.inj hc).1] at hmem
        rw [hdrop] at hnodup
        exact (List.nodup_cons.mp hnodup).1 hmem
      · apply hunsent e' _ hc
        show e' ∈ osds.drop i
        rw [hdrop]
        exact List.mem_cons_of_mem _ he'
    · rw [List.getElem?_set_ne hne.symm] at hu
      rcases List.mem_cons.mp hc with hc | hc
      · exact hne (hother u caller addr' req' hu hheld (Prod.mk.inj hc).2)
      · exact h.unsent caller (List.mem_of_getElem? hu) addr' req' hheld e' he' hc

end CopiesOk

end CephInC
