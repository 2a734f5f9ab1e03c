import StackAsm.Proofs.Container.Writer

/-!
# Sinks that hold only so much

Writing stops at the first check that fails, and a bounded sink stops it at the first bytes that do
not fit. Which of the two comes first is decided by counting: a sink of any size is left with the
beginning of what an unbounded one would hold, and a check is reached exactly if all the bytes in
front of it fit. So the outcome is that of the unbounded sink as long as its bytes fit, and the sink
is full otherwise.
-/

namespace StackAsm.Container

/-- A sink with room for `n` bytes holds as much of them as fits; if not all of them fit, the sink
has stopped the writing before that check. -/
theorem leaves_perform_some (pieces : List Bytes) (n : Nat) (steps : List Step) :
    leaves (perform steps) ⟨pieces, some n⟩ =
      ⟨pieces.reverse.flatten ++ (output (reached steps)).take n,
        if (output (reached steps)).length ≤ n then refusal steps else some .sinkFull⟩ := by
  induction steps generalizing pieces n with
  | nil =>
    rw [reached_nil, output_nil, List.take_nil, List.append_nil, List.length_nil,
      if_pos (Nat.zero_le n)]
    rfl
  | cons step steps ih =>
    cases step with
    | reject e =>
      rw [reached_reject_cons, output_nil, List.take_nil, List.append_nil, List.length_nil,
        if_pos (Nat.zero_le n)]
      rfl
    | write bytes =>
      rw [reached_write_cons, output_write_cons, refusal_write_cons, List.length_append, leaves,
        perform]
      by_cases hfits : bytes.length ≤ n
      · -- the room that is left is what the rest of the bytes has to fit
        have hrest : (output (reached steps)).length ≤ n - bytes.length ↔
            bytes.length + (output (reached steps)).length ≤ n := by omega
        have hput : put bytes ⟨pieces, some n⟩ =
            .ok () ⟨bytes :: pieces, some (n - bytes.length)⟩ := by
          simp [put, hfits, List.take_of_length_le hfits]
        rw [estate_bind_of_ok hput]
        refine (ih (bytes :: pieces) (n - bytes.length)).trans ?_
        rw [List.take_append, List.take_of_length_le hfits]
        simp [hrest]
      · have hfull : ¬bytes.length + (output (reached steps)).length ≤ n := by omega
        have hput : put bytes ⟨pieces, some n⟩ =
            .error .sinkFull ⟨bytes.take n :: pieces, some (n - bytes.length)⟩ := by
          simp [put, hfits]
        rw [if_neg hfull, List.take_append_of_le_length (by omega)]
        simp only [Bind.bind, EStateM.bind, hput, Sink.bytes]
        simp

/-- **A bounded sink gets a beginning.** Written into a sink of `n` bytes, a container leaves there
the first `n` bytes of what it leaves in an unbounded one. If these are all of them, the outcome is
the same too; if not, it is that the sink has failed. -/
theorem writeTo_bounded (c : Container) (n : Nat) :
    (c.writeTo (some n)).bytes = (c.writeTo none).bytes.take n ∧
      if (c.writeTo none).bytes.length ≤ n then
        (c.writeTo (some n)).failure = (c.writeTo none).failure
      else (c.writeTo (some n)).failure.map WriteError.errorClass = some .io := by
  have hsome : c.writeTo (some n) = ⟨(output (reached c.steps)).take n,
      if (output (reached c.steps)).length ≤ n then refusal c.steps else some .sinkFull⟩ :=
    (congrArg (leaves · _) (writeParts_eq c)).trans (leaves_perform_some [] n c.steps)
  rw [writeTo_none, hsome]
  refine ⟨rfl, ?_⟩
  by_cases hfits : (output (reached c.steps)).length ≤ n
  · simp only [hfits, if_true]
  · simp only [hfits, if_false]
    rfl

/-- A container whose second slot has an index out of range: 23 bytes stand in front of the check
that fails. -/
def strayingSlot : Container where
  type := ⟨.executable, .w8⟩
  metadata := {}
  slots := [⟨"io", 3, true⟩, ⟨"gfx", 16, false⟩]
  constants := []
  symbols := []

/-- As long as the bytes in front of the check fit, the check decides; one byte less, and the sink
does. -/
example :
    (strayingSlot.writeTo none).bytes.length = 23 ∧
      (strayingSlot.writeTo (some 23)).failure = some (.slotIndexOutOfRange 16) ∧
      (strayingSlot.writeTo (some 22)).failure = some .sinkFull := by
  decide

end StackAsm.Container
