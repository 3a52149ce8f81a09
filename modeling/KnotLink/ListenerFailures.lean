import KnotLink.CSharp.ReadTask
import KnotLink.Java.ReadData
/-!
# A listener that throws

In the Java and the C# receive loops what a listener throws is caught around its call, when the buffer stands behind
the message already. So two listeners that differ only in which calls throw are handed the same messages, and the
loops end alike; a listener that leaves the connection alone is handed every message there is.
-/
namespace KnotLink
open Lib

/-- **Failing listeners are isolated.** For every way the reads can go and any two listeners that do the same but for
what they throw, the Java reader hands over the same messages and ends the same way, and so does the C# one, whatever
becomes of the errors there; and a listener that neither disconnects nor disposes gets every complete message in
Java, and every message that `TryExtractMessage` returns in C#. -/
theorem listener_failures_isolated :
    (∀ (l l' : Java.Listener), (∀ ms, (l ms).disconnects = (l' ms).disconnects) → ∀ arrivals,
      let r := Java.Reader.readData l arrivals
      let r' := Java.Reader.readData l' arrivals
      r.client.delivered = r'.client.delivered ∧ r.exit = r'.exit) ∧
    (∀ (l : Java.Listener), (∀ ms, (l ms).disconnects = false) → ∀ chunks : List Bytes,
      (Java.Reader.readData l (chunks.map .bytes)).client.delivered = messages chunks.flatten) ∧
    (∀ (f f' : CSharp.Callback) (onError onError' : Option CSharp.ErrorHandler),
      (∀ texts, (f texts).disposal = (f' texts).disposal) → ∀ arrivals,
      let t := CSharp.ReadTask.readLoop (some f) onError arrivals
      let t' := CSharp.ReadTask.readLoop (some f') onError' arrivals
      t.loop.delivered = t'.loop.delivered ∧ t.loop.exit = t'.loop.exit ∧ t.loop.faulted = t'.loop.faulted) ∧
    (∀ (f : CSharp.Callback) (onError : Option CSharp.ErrorHandler), (∀ texts, (f texts).disposal = .live) →
      ∀ chunks : List Bytes, (CSharp.ReadTask.readLoop (some f) onError (chunks.map .bytes)).loop.delivered =
        ((CSharp.ReadLoop.readChunks .start chunks).extracted.filter isMessage).map Utf8.decodeReplace) := by
  refine ⟨fun l l' heffects arrivals => ?_, fun l hstays chunks => ?_, fun f f' onError onError' heffects arrivals => ?_,
    fun f onError hstays chunks => ?_⟩
  · obtain ⟨hclient, hexit⟩ := Java.Reader.readData_same heffects arrivals
    exact ⟨by rw [hclient], hexit⟩
  · exact Java.Reader.delivered_readData hstays chunks
  · have hloop := CSharp.ReadTask.readLoop_same onError onError' heffects arrivals
    simp [hloop]
  · exact CSharp.ReadTask.delivered_readLoop hstays chunks

/-- Two messages in one chunk. -/
def twoMessages : List Bytes := [frame (ascii "ab") ++ frame (ascii "cd")]

/-- A callback whose first call throws. -/
def firstThrows : CSharp.Callback := fun texts => ⟨.live, texts.length = 1⟩

/-- One that never does. -/
def neverThrows : CSharp.Callback := fun _ => ⟨.live, false⟩

/-- The first call throws, and `OnErrorAsync` throws as well. -/
theorem listener_failures_isolated_first :
    (Java.Reader.readData (fun ms => ⟨false, ms.length = 1⟩) (twoMessages.map .bytes)).client.delivered =
        messages twoMessages.flatten ∧
      (CSharp.ReadTask.readLoop (some firstThrows) (some fun _ => true) (twoMessages.map .bytes)).loop.delivered =
        (CSharp.ReadTask.readLoop (some neverThrows) none (twoMessages.map .bytes)).loop.delivered := by
  obtain ⟨-, hjava, hcsharp, -⟩ := listener_failures_isolated
  refine ⟨hjava _ (fun _ => rfl) twoMessages, ?_⟩
  exact (hcsharp firstThrows neverThrows (some fun _ => true) none (fun _ => rfl) (twoMessages.map .bytes)).1

end KnotLink
