/-
`cceph_messenger_stop`, beside the threads of the process.

The threads `1..n` are the ones `cceph_messenger_start` has created, and
only they call `epoll_wait`; between two events a worker is in its
handler, and sends, closes and connects like any thread. What
`start_epoll` does with an event of the wake-up pipe takes two steps
here: a byte is read, and the pipe is armed again. A byte more in the
pipe, or a worker joined, is a step of `cceph_messenger_stop`.

`written` and `readers` keep count beside it.
-/
import CephInC.Message.Threads

namespace CephInC

open Lib

-- ================================================== an event of the pipe

/-- `read` in the branch of `start_epoll` for the wake-up pipe. -/
def startEpollRead (messenger : Messenger) : Prog Inbox Messenger :=
  match messenger.wakeThreadPipe with
  | [] => fault .blocked
  | op :: rest => do
      assert (op = CCEPH_MESSENGER_OP_STOP)
      return { messenger with wakeThreadPipe := rest }

/-- The rest of that branch. -/
def startEpollRearm (messenger : Messenger) (fd : Int32) (ctl : Int) : Prog Inbox Handled := do
  let (ret, messenger) := waitForNextMsg messenger fd ctl
  assert (ret = 0)
  return .stop messenger

-- ============================================================== stopping

/-- Where `cceph_messenger_stop` is: not called yet, before the round `i` of
its two loops, or done. -/
inductive StopPoint where
  | out
  | writing (i : Nat)
  | joining (i : Nat)
  | done

structure Stopping where
  process : Process
  stop : StopPoint
  /-- The threads that have read a byte of the pipe, and have not armed it
  again. -/
  rearming : Nat → Bool
  /-- The bytes `cceph_messenger_stop` has written. -/
  written : Nat
  /-- The threads that have read a byte of the pipe, the last one first. -/
  readers : List Nat

def Stopping.messenger (s : Stopping) : Messenger := s.process.messenger

def Stopping.setMessenger (s : Stopping) (messenger : Messenger) : Stopping :=
  { s with process := { s.process with messenger } }

/-- A thread of `cceph_messenger_start`, which has created `n`. -/
def IsWorker (n t : Nat) : Prop := 0 < t ∧ t ≤ n

instance (n t : Nat) : Decidable (IsWorker n t) := inferInstanceAs (Decidable (_ ∧ _))

/-- `cceph_messenger_stop`, `n` being `messenger->thread_count`. -/
def stopStep (n : Nat) (s : Stopping) : StopPoint → Option Stopping
  | .out =>
      if s.messenger.state = CCEPH_MESSENGER_STATE_NORMAL then
        some { s with stop := .writing 0 }
      else none
  | .writing i =>
      if i < n then some
        { s.setMessenger { s.messenger with
            wakeThreadPipe := s.messenger.wakeThreadPipe ++ [CCEPH_MESSENGER_OP_STOP] } with
          stop := .writing (i + 1)
          written := s.written + 1 }
      else some { s with stop := .joining 0 }
  | .joining i =>
      if i < n then
        match s.process.threads (i + 1) with
        | .stopped => some { s with stop := .joining (i + 1) }
        | _ => none
      else some
        { s.setMessenger { s.messenger with state := CCEPH_MESSENGER_STATE_DESTORY } with
          stop := .done }
  | .done => none

inductive StopAct where
  | run (act : ProcessAct)
  | readPipe (t : Nat)
  | rearmPipe (t : Nat) (ctl : Int)
  | stop

/-- A step of a thread that the pipe does not make. -/
def runStep (n : Nat) (s : Stopping) (act : ProcessAct) : Option Stopping :=
  match act with
  | .wait t _ =>
      if IsWorker n t then
        (processStep s.process act).map fun process => { s with process }
      else none
  | .wake _ _ => none
  | _ => (processStep s.process act).map fun process => { s with process }

def stoppingStep (n : Nat) (s : Stopping) : StopAct → Option Stopping
  | .run act => runStep n s act
  | .readPipe t =>
      match s.process.threads t, s.rearming t with
      | .woken _, false =>
          match startEpollRead s.messenger ⟨[], .plenty⟩ with
          | .ok (messenger, _) => some
              { s.setMessenger messenger with
                rearming := Function.update s.rearming t true
                readers := t :: s.readers }
          | .error _ => none
      | _, _ => none
  | .rearmPipe t ctl =>
      match s.process.threads t, s.rearming t with
      | .woken fd, true =>
          match startEpollRearm s.messenger fd ctl ⟨[], .plenty⟩ with
          | .ok (handled, _) => some
              { s with
                process := { s.process.move t .stopped with messenger := handled.messenger } }
          | .error _ => none
      | _, _ => none
  | .stop => stopStep n s s.stop

/-- A messenger with `n` threads, from the end of `cceph_messenger_start`
on. -/
def stoppingSystem (n : Nat) : System Stopping StopAct where
  init s := ∃ fd state process, 0 ≤ fd
    ∧ processSystem.exec (processStart fd) [.listConn 0 state, .register 0 0] = some process
    ∧ s = ⟨process, .out, fun _ => false, 0, []⟩
  step := stoppingStep n

/-- The id of the connection of the wake-up pipe, the first one. -/
def wakeThreadPipeId : Int64 := 2

/-- The system calls do not fail, the pipe is reported while there is a byte
in it, and the callers name other connections than that of the pipe. -/
def TrafficOk (s : Stopping) : StopAct → Prop
  | .run (.openSocket _ _ _ fd) => 0 ≤ fd
  | .run (.register _ ctl) => ctl = 0
  | .run (.rearm _ ctl) => ctl = 0
  | .run (.wait _ event) => event.fd = s.messenger.wakeThreadPipeFd →
      s.messenger.wakeThreadPipe ≠ [] ∧ isConnErr event = false
  | .run (.sendMsg _ connId _ _) => connIdToInt connId ≠ connIdToInt wakeThreadPipeId
  | .run (.closeConn _ connId) => connIdToInt connId ≠ connIdToInt wakeThreadPipeId
  | .rearmPipe _ ctl => ctl = 0
  | _ => True

-- ======================================================= what is asked

/-- The thread has taken an event of the pipe, and is not through with it. -/
def Phase.HasPipe (fd : Int32) : Phase → Prop
  | .reported event => event.fd = fd
  | .woken fd' => fd' = fd
  | _ => False

/-- A worker in `epoll_wait` is given the event of the pipe, and reads a byte
of it. -/
def takePipe (t : Nat) (fd : Int32) : List StopAct :=
  [.run (.wait t ⟨EPOLLIN, fd⟩), .run (.lookup t), .readPipe t]

structure StopLaw (n : Nat) (s : Stopping) : Prop where
  ops : ∀ op ∈ s.messenger.wakeThreadPipe, op = CCEPH_MESSENGER_OP_STOP
  count : s.written = s.messenger.wakeThreadPipe.length + s.readers.length
  once : s.readers.Nodup
  workers : ∀ t ∈ s.readers, IsWorker n t
  /-- A byte is left: it can be reported, or is about to be again. -/
  armed : s.messenger.wakeThreadPipe ≠ [] →
    s.messenger.wakeThreadPipeFd ∈ s.messenger.armed
      ∨ ∃ t, IsWorker n t ∧ (s.process.threads t).HasPipe s.messenger.wakeThreadPipeFd
  /-- A byte is left, and the workers that are left only wait: there is one,
  and each of them can take it. -/
  awake : s.messenger.wakeThreadPipe ≠ [] →
    (∀ t, IsWorker n t → s.process.threads t = .free ∨ s.process.threads t = .stopped) →
    (∃ t, IsWorker n t ∧ s.process.threads t = .free)
      ∧ ∀ t, IsWorker n t → s.process.threads t = .free → ∃ s',
        (stoppingSystem n).exec s (takePipe t s.messenger.wakeThreadPipeFd) = some s'
          ∧ s'.readers = t :: s.readers

end CephInC
