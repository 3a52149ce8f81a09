import KnotLink.Frame
import KnotLink.Lib.Channel
/-!
# C++ `TcpClient::sendData` (TcpClient.hpp:96-117)

Any number of threads, the heartbeat thread among them, call `sendData` on a connected client. A call takes
`sendMutex` and writes magic, length and data by one `::send` each. What `::send` returns is compared with -1
and with nothing else, so a short count goes unnoticed and the next piece is written behind it; and `handleError`
clears `running`, which `sendData` does not look at.

The sizes are cast: `static_cast<uint32_t>` for the length field, `static_cast<int>` for the third `::send`.
-/
namespace KnotLink.Cpp
open Lib

/-- The three `::send` of a call. -/
inductive Stage where
  | magic
  | length
  | data
  deriving DecidableEq, Repr

/-- Where a call stands. -/
inductive SendPc where
  /-- Before the lock. -/
  | entered
  /-- It holds the lock and is before this `::send`. -/
  | sending (stage : Stage)
  | returned
  /-- This `::send` returned -1, and `handleError` has run. -/
  | failed (stage : Stage)
  deriving DecidableEq, Repr

structure SendCall where
  data : Bytes
  pc : SendPc
  /-- What it has written. -/
  wrote : Bytes
  deriving DecidableEq, Repr

structure Senders where
  running : Bool
  /-- The bytes written to the connection. -/
  stream : Bytes
  /-- The call that holds `sendMutex`. -/
  sendMutex : Option Nat
  calls : List SendCall
  /-- The heartbeat thread's last call. -/
  beat : Option Nat
  deriving DecidableEq, Repr

inductive SendAct where
  | sendData (data : Bytes)
  | heartbeat
  | lock (k : Nat)
  /-- The next `::send` of call `k`: so many bytes written, or -1. -/
  | send (k : Nat) (result : Option Nat)
  /-- The read thread clears `running`. -/
  | stop
  deriving DecidableEq, Repr

/-- The bytes the third `::send` is asked to write. A negative `int` is a huge `size_t`: the data and `behind`,
what follows it in memory up to where reading fails. -/
def asked (behind : Bytes → Bytes) (data : Bytes) : Bytes :=
  let size := signed32 (data.length % 2 ^ 32)
  if size < 0 then data ++ behind data else data.take size.toNat

/-- The bytes the `::send` of a stage is asked to write. -/
def Stage.bytes (behind : Bytes → Bytes) (data : Bytes) : Stage → Bytes
  | .magic => MAGIC
  | .length => toBE 4 (data.length % 2 ^ 32)
  | .data => asked behind data

/-- Where a call stands behind a `::send` that did not return -1. -/
def Stage.next : Stage → SendPc
  | .magic => .sending .length
  | .length => .sending .data
  | .data => .returned

def SendPc.isOver : SendPc → Bool
  | .returned | .failed _ => true
  | .entered | .sending _ => false

namespace Senders

/-- A connected client that has sent nothing. -/
def start : Senders := ⟨true, [], none, [], none⟩

/-- One `::send` of call `k`, which is `c` and stands before `stage`. -/
def send (behind : Bytes → Bytes) (s : Senders) (k : Nat) (c : SendCall) (stage : Stage) :
    Option Nat → Option Senders
  | none => some { s with
      running := false
      sendMutex := none
      calls := s.calls.set k { c with pc := .failed stage } }
  | some n =>
    let bytes := stage.bytes behind c.data
    if n ≤ bytes.length ∧ (n = 0 → bytes = []) then some { s with
      stream := s.stream ++ bytes.take n
      sendMutex := if stage = .data then none else s.sendMutex
      calls := s.calls.set k { c with pc := stage.next, wrote := c.wrote ++ bytes.take n } }
    else none

def step (behind : Bytes → Bytes) (s : Senders) : SendAct → Option Senders
  | .sendData data => some { s with calls := s.calls ++ [⟨data, .entered, []⟩] }
  | .heartbeat =>
    -- `sendHeartbeat` is a loop: the call before is over
    if s.running && (s.beat.bind fun k => s.calls[k]?).all (·.pc.isOver) then
      some { s with calls := s.calls ++ [⟨KnotLink.heartbeat, .entered, []⟩], beat := some s.calls.length }
    else none
  | .lock k =>
    match s.sendMutex, s.calls[k]? with
    | none, some ⟨data, .entered, wrote⟩ =>
      some { s with sendMutex := some k, calls := s.calls.set k ⟨data, .sending .magic, wrote⟩ }
    | _, _ => none
  | .send k result =>
    match s.calls[k]? with
    | some c =>
      match c.pc with
      | .sending stage => s.send behind k c stage result
      | _ => none
    | none => none
  | .stop => some { s with running := false }

def system (behind : Bytes → Bytes) : System Senders SendAct := ⟨step behind⟩

/-! ## What a step can do -/

/-- The ways a step can go. -/
inductive Step (behind : Bytes → Bytes) (s : Senders) : SendAct → Senders → Prop where
  | entered {data : Bytes} : Step behind s (.sendData data) { s with calls := s.calls ++ [⟨data, .entered, []⟩] }
  | beat (hrun : s.running = true) (hbeat : (s.beat.bind fun k => s.calls[k]?).all (·.pc.isOver) = true) :
      Step behind s .heartbeat
        { s with calls := s.calls ++ [⟨KnotLink.heartbeat, .entered, []⟩], beat := some s.calls.length }
  | locked {k : Nat} {data wrote : Bytes} (hfree : s.sendMutex = none)
      (hk : s.calls[k]? = some ⟨data, .entered, wrote⟩) :
      Step behind s (.lock k) { s with sendMutex := some k, calls := s.calls.set k ⟨data, .sending .magic, wrote⟩ }
  | failed {k : Nat} {c : SendCall} {stage : Stage} (hk : s.calls[k]? = some c) (hpc : c.pc = .sending stage) :
      Step behind s (.send k none) { s with
        running := false
        sendMutex := none
        calls := s.calls.set k { c with pc := .failed stage } }
  | sent {k n : Nat} {c : SendCall} {stage : Stage} (hk : s.calls[k]? = some c) (hpc : c.pc = .sending stage)
      (hn : n ≤ (stage.bytes behind c.data).length) (h0 : n = 0 → stage.bytes behind c.data = []) :
      Step behind s (.send k (some n)) { s with
        stream := s.stream ++ (stage.bytes behind c.data).take n
        sendMutex := if stage = .data then none else s.sendMutex
        calls := s.calls.set k
          { c with pc := stage.next, wrote := c.wrote ++ (stage.bytes behind c.data).take n } }
  | stopped : Step behind s .stop { s with running := false }

theorem step_cases {behind : Bytes → Bytes} {s u : Senders} {a : SendAct} (h : step behind s a = some u) :
    Step behind s a u := by
  cases a with
  | sendData data =>
    cases h
    exact .entered
  | heartbeat =>
    simp only [step] at h
    split at h
    · rename_i hc
      cases h
      rw [Bool.and_eq_true] at hc
      exact .beat hc.1 hc.2
    · cases h
  | lock k =>
    simp only [step] at h
    split at h
    · rename_i hfree hk
      cases h
      exact .locked hfree hk
    · cases h
  | send k result =>
    simp only [step] at h
    split at h
    · rename_i c hk
      split at h
      · rename_i stage hpc
        cases result with
        | none =>
          cases h
          exact .failed hk hpc
        | some n =>
          simp only [send] at h
          split at h
          · rename_i hn
            cases h
            exact .sent hk hpc hn.1 hn.2
          · cases h
      · cases h
    · cases h
  | stop =>
    cases h
    exact .stopped

/-! ## A call whose pieces are all accepted -/

/-- What its three `::send` write, one behind the other. -/
def packet (behind : Bytes → Bytes) (data : Bytes) : Bytes :=
  MAGIC ++ toBE 4 (data.length % 2 ^ 32) ++ asked behind data

/-- Below 2 GiB the casts change nothing. -/
theorem asked_eq {data : Bytes} (h : data.length < 2 ^ 31) (behind : Bytes → Bytes) : asked behind data = data := by
  have hsize : signed32 (data.length % 2 ^ 32) = data.length := by
    rw [Nat.mod_eq_of_lt (by omega), signed32, if_pos h]
  simp only [asked, hsize]
  rw [if_neg (by omega), Int.toNat_natCast, List.take_length]

theorem packet_eq {data : Bytes} (h : data.length < 2 ^ 31) (behind : Bytes → Bytes) :
    packet behind data = frame data := by
  rw [packet, asked_eq h, show (2 : Nat) ^ 32 = 256 ^ 4 from rfl, toBE_mod, frame]

end Senders
end KnotLink.Cpp
