import KnotLink.Python.Stream
import KnotLink.Java.TcpClient
import KnotLink.Rust.TcpClient
import KnotLink.Cpp.TcpClient
/-!
# The receivers of the SDKs agree

Each receiver follows the codec's over any cut of any stream, so any two of them deliver the same and give
up on the same chunk: a prefix of a cut is itself a cut.
-/
namespace KnotLink
open Lib

variable {σ τ : Type} {V : View σ} {W : View τ} {g : List Bytes} {s : σ} {t : τ}
  {a : Codec.Receiver UInt8 Bytes}

theorem View.Follows.agree (hs : V.Follows g s a) (ht : W.Follows g t a) (hk : V.keep = W.keep) :
    V.delivered s = W.delivered t ∧ V.up s = W.up t :=
  ⟨by rw [hs.delivered, ht.delivered, hk], hs.up.trans ht.up.symm⟩

/-- **Same stream, same cut, same outcome.** On every stream, valid or malformed, and every cut into
non-empty chunks, the Java, Rust and C++ receivers hand over what the Python one does and have given up
after the same number of chunks. -/
theorem receivers_agree (chunks : List Bytes) (hne : ∀ c ∈ chunks, c ≠ []) (n : Nat) :
    let python := Python.TcpClient.receiveChunks (some Python.quiet) ⟨true, true, [], [], []⟩ (chunks.take n)
    let java := Java.TcpClient.readChunks Java.quiet .connected (chunks.take n)
    let rust := Rust.Run.readChunks .start (chunks.take n)
    let cpp := Cpp.TcpClient.readChunks .connected (chunks.take n)
    (java.delivered = python.received ∧ rust.onData = python.received ∧ cpp.delivered = python.received) ∧
      (java.reading = python.connected ∧ rust.result.isNone = python.connected ∧
        cpp.running = python.connected) := by
  intro python java rust cpp
  have hne' : ∀ c ∈ chunks.take n, c ≠ [] := fun c hc => hne c (List.mem_of_mem_take hc)
  have hpy : Python.TcpClient.view.Follows [] python (wire.feedAll ⟨[], [], true⟩ (chunks.take n)) :=
    Python.TcpClient.receiveChunks_follows hne' ⟨rfl, fun _ => rfl, rfl⟩
  have hjava : Java.TcpClient.view.Follows [] java (wire.feedAll ⟨[], [], true⟩ (chunks.take n)) :=
    have h0 : Java.TcpClient.view.Follows [] .connected ⟨[], [], true⟩ :=
      ⟨rfl, fun _ => Java.ByteBuffer.contents_empty, rfl⟩
    Java.TcpClient.readChunks_follows h0 _
  have hrust : Rust.Run.view.Follows [] rust (wire.feedAll ⟨[], [], true⟩ (chunks.take n)) :=
    Rust.Run.readChunks_follows ⟨rfl, fun _ => rfl, rfl⟩ hne'
  have hcpp : Cpp.TcpClient.view.Follows [] cpp (wire.feedAll ⟨[], [], true⟩ (chunks.take n)) :=
    Cpp.TcpClient.readChunks_follows ⟨rfl, fun _ => rfl, rfl⟩ hne'
  obtain ⟨hj, hju⟩ := hjava.agree hpy rfl
  obtain ⟨hr, hru⟩ := hrust.agree hpy rfl
  obtain ⟨hc, hcu⟩ := hcpp.agree hpy rfl
  exact ⟨⟨hj, hr, hc⟩, hju, hru, hcu⟩

/-- A frame cut inside its length, then a length field of 2³¹: Java reads a negative number there, and all
four have delivered the frame and given up after the third chunk. -/
theorem receivers_agree_negative_length :
    let chunks := [MAGIC ++ [0, 0], [0, 2] ++ ascii "ab" ++ MAGIC, [0x80, 0, 0, 0]]
    let java := Java.TcpClient.readChunks Java.quiet .connected (chunks.take 3)
    let python := Python.TcpClient.receiveChunks (some Python.quiet) ⟨true, true, [], [], []⟩ (chunks.take 3)
    java.delivered = python.received ∧ java.reading = python.connected :=
  have h := receivers_agree [MAGIC ++ [0, 0], [0, 2] ++ ascii "ab" ++ MAGIC, [0x80, 0, 0, 0]] (by decide) 3
  ⟨h.1.1, h.2.1⟩

end KnotLink
