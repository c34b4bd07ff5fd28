/-
From one process to the other.

The places of a sender (`Posted.lean`) and the workers of a receiver
(`Workers.lean`) meet in the stream: what arrives of it is the messages
at the first places, and then a part of one more that no worker takes
for a message (`coming_of_places`).
-/
import CephInC.Message.Proofs.Posted
import CephInC.Message.Proofs.Workers

namespace CephInC

open Lib

section
variable {s : Posted}

/-- What was sent, or a first part of it, is the messages at the first
places and a part of one more. -/
theorem coming_of_places (hok : PostedOk s) {part : List UInt8} (hpart : Part part)
    {places : List Nat} (hplaced : ∀ i ∈ places, i < s.posted.length) :
    ∀ {d : List UInt8}, d <+: places.flatMap s.bytesAt ++ part →
      ∃ order got rest, order <+: places ∧ d = order.flatMap s.bytesAt ++ rest
        ∧ List.Forall₂ s.Arrived order got ∧ Part rest ∧ Coming rest got d := by
  induction places with
  | nil => exact fun hd => ⟨[], [], _, List.nil_prefix, rfl, .nil, hpart.of_prefix hd, .nil⟩
  | cons i places ih =>
      intro d hd
      have hget := List.getElem?_eq_getElem (hplaced i List.mem_cons_self)
      have hfits := hok.fits _ (List.mem_of_getElem? hget)
      obtain ⟨bs, first, hbs, hwire, hcounted, hsame⟩ := msgEncoding_onWire hfits.trim_travels
      rw [hfits.trim_encoding] at hbs
      have hat : s.bytesAt i = bs := by
        unfold Posted.bytesAt
        rw [hget, Option.bind_some, hbs]
        rfl
      rw [List.flatMap_cons, hat, List.append_assoc] at hd
      rcases List.prefix_or_prefix_of_prefix hd (List.prefix_append bs _) with hle | hge
      · by_cases heq : d = bs
        · subst heq
          refine ⟨[i], [first], [], List.cons_prefix_cons.mpr ⟨rfl, List.nil_prefix⟩, ?_,
            .cons ⟨_, _, hget, hsame⟩ .nil, part_nil, ?_⟩
          · rw [List.flatMap_singleton, hat, List.append_nil]
          · rw [← List.append_nil d]
            exact .cons hwire hcounted .nil
        · exact ⟨[], [], d, List.nil_prefix, rfl, .nil, ⟨bs, ⟨_, hfits, hbs⟩, hle, heq⟩, .nil⟩
      · -- the message is there, and more
        obtain ⟨d, rfl⟩ := hge
        obtain ⟨order, got, rest, horder, hbytes, harrived, hrest, hcoming⟩ :=
          ih (fun j hj => hplaced j (List.mem_cons_of_mem i hj))
            ((List.prefix_append_right_inj bs).mp hd)
        refine ⟨i :: order, first :: got, rest, List.cons_prefix_cons.mpr ⟨rfl, horder⟩, ?_,
          .cons ⟨_, _, hget, hsame⟩ harrived, hrest, .cons hwire hcounted hcoming⟩
        rw [List.flatMap_cons, hat, List.append_assoc, ← hbytes]

theorem sent_places (hok : PostedOk s) (a : Nat) : ∃ part, Part part
    ∧ s.sharing.shared.sent a = (s.writtenTo a).flatMap s.bytesAt ++ part := by
  cases hok.written a with
  | whole hsent hnone => exact ⟨[], part_nil, hsent.trans (List.append_nil _).symm⟩
  | writing t id msg before calls hp hmsg hleft hsent =>
      have hfit : msg.Fits := hok.streams.fits t msg (by rw [hp]; rfl)
      refine ⟨_, ⟨_, ⟨msg, hfit, encoding_of_calls hfit hmsg⟩, ⟨callBytes calls, rfl⟩, ?_⟩,
        hsent⟩
      exact fun hsame => hleft (List.append_right_eq_self.mp hsame.symm)
  | broken part hpart hsent hdead => exact ⟨part, hpart, hsent⟩

/-- Places of one thread are in turn, so none is written down twice. -/
theorem written_nodup (hok : PostedOk s) : (s.written.map Prod.snd).Nodup := by
  refine List.pairwise_map.mpr (hok.tickets.inTurn.imp_of_mem fun {p q} hp _ hturn heq => ?_)
  have hget := List.getElem?_eq_getElem (hok.tickets.placed p hp)
  have hlt := hturn _ _ hget (heq ▸ hget) rfl
  rw [heq] at hlt
  exact Nat.lt_irrefl _ hlt

theorem writtenTo_inTurn (hok : PostedOk s) (a : Nat) : (s.writtenTo a).Pairwise s.InTurn := by
  refine List.pairwise_filterMap.mpr (hok.tickets.inTurn.imp fun {p q} hturn i hi j hj => ?_)
  split_ifs at hi with hp
  split_ifs at hj with hq
  cases hi
  cases hj
  exact hturn

/-- From the calls of `cceph_messenger_send_msg` in one process to those of
`msg_process` in the other, whatever the threads and the workers do and
however the bytes are cut: what arrived of the stream is messages that
were posted, whole, in the order they were written, and a part of the
next; no call's message is written twice, on this connection or another,
and those of one thread are in the order of its calls; and each that
arrived is handed over once. No worker takes its process down. -/
theorem posted_handedOver (h : postedSystem.Reached PostedClean s) (a : Nat) {τ : Type}
    [DecidableEq τ] {fd : Int32} {messenger : Messenger} {inbox : Inbox} {conn : Connection}
    (hserves : Listens messenger fd conn) (hplenty : inbox.Plenty)
    (hd : inbox.delivered <+: s.sharing.shared.sent a)
    {m : Threads τ EventCall EventAnswer (Messenger × Inbox) Fault}
    (hm : (workers fd messenger inbox).Reachable m) :
    ∃ order got rest, inbox.delivered = order.flatMap s.bytesAt ++ rest ∧ Part rest
      ∧ List.Forall₂ s.Arrived order got ∧ order <+: s.writtenTo a
      ∧ (s.written.map Prod.snd).Nodup ∧ order.Pairwise s.InTurn
      ∧ (∃ read held, HandedOnce conn got m.history read held)
      ∧ ∀ t e, ¬m.Fails (oneShot fd) t e := by
  have hok := postedOk_of_reached h
  obtain ⟨part, hpart, hsent⟩ := sent_places hok a
  rw [hsent] at hd
  obtain ⟨order, got, rest, horder, hbytes, harrived, hrest, hcoming⟩ :=
    coming_of_places hok hpart (fun i hi => hok.tickets.placed _ (mem_writtenTo.mp hi)) hd
  obtain ⟨hhands, hsafe⟩ :=
    handedOnce_of_coming hserves hplenty hcoming hrest.not_taken hm
  exact ⟨order, got, rest, hbytes, hrest, harrived, horder, written_nodup hok,
    (writtenTo_inTurn hok a).sublist horder.sublist, hhands, hsafe hrest.not_crashes⟩

end

-- ------------------------------------------------------------ an example

/-- The thread goes on, and the socket accepts all it is given. -/
def sendsAll (t n : Nat) : List LockAct :=
  List.replicate n (.run t (.accepted (2 ^ 64) 0) 0)

theorem sendsAll_clean (t n : Nat) : ∀ act ∈ sendsAll t n, ∀ s, PostedClean s act := by
  intro act h s
  rw [List.eq_of_mem_replicate h]
  show AllOrFails (.accepted (2 ^ 64) 0) (s.sharing.points t)
  unfold AllOrFails
  split
  · rename_i call _ _ _
    refine .inl ?_
    cases call with
    | word bytes hfits => exact Nat.le_of_lt (Nat.lt_of_lt_of_le hfits (by decide))
    | block bytes size line =>
        have hlt : size % 2 ^ 64 < 2 ^ 64 := Int.emod_lt_of_pos size (by decide)
        show (size % 2 ^ 64).toNat ≤ 2 ^ 64
        omega
  · trivial

/-- Thread 1 calls before thread 2, which gets the connection first. -/
def crossing : List LockAct :=
  adds ++ [.call 1 (.sendMsg 2 (.writeObjAck firstAck)),
    .call 2 (.sendMsg 2 (.writeObjAck secondAck))] ++ sendsAll 2 15 ++ sendsAll 1 15

/-- What thread 2 and thread 1 wrote, in two pieces. -/
def crossed : List UInt8 := bytesOf [.writeObjAck secondAck, .writeObjAck firstAck]

def crossedArrive : Inbox :=
  ⟨[.bytes ⟨crossed.take 30, by decide, by decide⟩, .bytes ⟨crossed.drop 30, by decide, by decide⟩],
    .plenty⟩

theorem posted_handedOver_two :
    ∃ s m order got rest, postedSystem.exec ⟨sharingStart, [], fun _ => 0, []⟩ crossing = some s
      ∧ (workers 5 firstMessenger crossedArrive).exec
        ⟨(firstMessenger, crossedArrive), fun _ => none, []⟩ overtaking = some m
      ∧ s.writtenTo 0 = [1, 0]
      ∧ handedOver m.history
        = [(false, 2, .writeObjAck firstAck), (true, 2, .writeObjAck secondAck)]
      ∧ crossedArrive.delivered = order.flatMap s.bytesAt ++ rest ∧ Part rest
      ∧ List.Forall₂ s.Arrived order got ∧ order <+: s.writtenTo 0
      ∧ (s.written.map Prod.snd).Nodup ∧ order.Pairwise s.InTurn
      ∧ (∃ read held, HandedOnce firstConn got m.history read held)
      ∧ ∀ t e, ¬m.Fails (oneShot 5) t e := by
  have hsender : (postedSystem.exec ⟨sharingStart, [], fun _ => 0, []⟩ crossing).map
      (fun s => (s.writtenTo 0, s.sharing.shared.sent 0)) = some ([1, 0], crossed) := by
    decide +kernel
  have hreceiver : ((workers 5 firstMessenger crossedArrive).exec
      ⟨(firstMessenger, crossedArrive), fun _ => none, []⟩ overtaking).map
        (fun m => handedOver m.history)
      = some [(false, 2, .writeObjAck firstAck), (true, 2, .writeObjAck secondAck)] := by
    decide +kernel
  obtain ⟨s, hsexec, hs⟩ := Option.map_eq_some_iff.mp hsender
  obtain ⟨hplaces, hsent⟩ := Prod.mk.inj hs
  obtain ⟨m, hmexec, hhanded⟩ := Option.map_eq_some_iff.mp hreceiver
  have hclean : ∀ act ∈ crossing, ∀ s, PostedClean s act := by
    unfold crossing adds
    simp only [List.cons_append, List.nil_append, List.append_assoc, List.forall_mem_cons,
      List.forall_mem_append]
    exact ⟨fun _ => trivial, fun act hact s => operations_clean 0 5 act hact s.sharing,
      fun _ => rfl, fun _ => rfl, sendsAll_clean 2 15, sendsAll_clean 1 15⟩
  have hsreached := System.Reached.exec crossing hclean (.start rfl) hsexec
  have hmstart : (workers 5 firstMessenger crossedArrive).Reachable
      ⟨(firstMessenger, crossedArrive), fun _ : Bool => none, []⟩ := .start ⟨rfl, rfl⟩
  have hmreached := System.Reached.exec overtaking (fun _ _ _ => trivial) hmstart hmexec
  have hserves : Listens firstMessenger 5 firstConn := ⟨rfl, by decide⟩
  have hplenty : crossedArrive.Plenty := rfl
  have hd : crossedArrive.delivered <+: s.sharing.shared.sent 0 := by
    rw [hsent]
    exact List.prefix_rfl
  obtain ⟨order, got, rest, hall⟩ := posted_handedOver hsreached 0 hserves hplenty hd hmreached
  exact ⟨s, m, order, got, rest, hsexec, hmexec, hplaces, hhanded, hall⟩

end CephInC
