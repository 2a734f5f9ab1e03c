import StackAsm.Container.Writer
import StackAsm.Proofs.Effects
import Mathlib.Data.List.Basic
import Mathlib.Data.List.TakeWhile

/-!
# What writing a container leaves behind

Writing puts bytes into the sink and makes checks, and neither what is put nor what is checked
depends on the sink. So it is a list of steps: the bytes for the sink, and the checks that fail. The
steps of a container are put together from those of its parts, and writing the container is
performing them one after the other up to the first failure (`writeParts_eq`).

The steps are accepted if no check among them has failed. Into an unbounded sink go the bytes in
front of the first check that failed, so accepted steps write all their bytes, and writing succeeds
only if the steps are accepted. These notions go through the way the steps are put together, so that
what is written can be looked at part by part.
-/

namespace StackAsm.Container

/-! ### Steps -/

/-- One step of writing. -/
inductive Step where
  /-- Bytes for the sink. -/
  | write (bytes : Bytes)
  /-- A check that failed. -/
  | reject (e : WriteError)
  deriving DecidableEq, Repr

/-- Performs the steps up to the first check that failed. -/
def perform : List Step → Write
  | [] => pure ()
  | .write bytes :: steps => put bytes >>= fun _ => perform steps
  | .reject e :: _ => throw e

@[simp] theorem perform_write (bytes : Bytes) : perform [.write bytes] = put bytes :=
  bind_pure_unit

/-- One list of steps after the other. -/
theorem perform_append (steps steps' : List Step) :
    perform (steps ++ steps') = perform steps >>= fun _ => perform steps' := by
  induction steps with
  | nil => exact (pure_bind () fun _ => perform steps').symm
  | cons step steps ih =>
    cases step with
    | write bytes => rw [List.cons_append, perform, ih, perform, bind_assoc]
    | reject e => rfl

theorem perform_flatMap {α : Type} {write : α → Write} {f : α → List Step}
    (h : ∀ x, write x = perform (f x)) (xs : List α) : xs.forM write = perform (xs.flatMap f) := by
  induction xs with
  | nil => rfl
  | cons x xs ih =>
    rw [List.flatMap_cons, perform_append, ← h, ← ih]
    rfl

/-- A check: no step if it holds. -/
def require (holds : Bool) (e : WriteError) : List Step := if holds then [] else [.reject e]

theorem perform_require (holds : Bool) (e : WriteError) :
    perform (require holds e) = check holds e := by
  cases holds <;> rfl

/-! ### The steps of a container -/

/-- The length of some bytes and the bytes themselves. -/
def blobSteps (w : Width) (what : String) (bytes : Bytes) : List Step :=
  require (w.fitsLength bytes.length) (.tooLong what bytes.length) ++
    [.write (w.encode (UInt64.ofNat bytes.length)), .write bytes]

/-- The length of a plain text and the text itself. -/
def textSteps (w : Width) (what : String) (s : String) : List Step :=
  require (isAscii s) (.notAscii what) ++ blobSteps w what (asciiBytes s)

/-- The number of entries of a table, as a byte. -/
def countSteps (n limit : Nat) (e : WriteError) : List Step :=
  require (n ≤ limit) e ++ [.write [UInt8.ofNat n]]

/-- The type of a container. -/
def typeSteps (type : ContainerType) : List Step :=
  [.write magic, .write tagStart, .write [kindTag type.kind], .write [typeFlags type]]

/-- What a container says about itself. -/
def metadataSteps (w : Width) (m : Metadata) : List Step :=
  textSteps w "title" m.title ++ textSteps w "description" m.description ++
    textSteps w "author" m.author ++
    [.write m.version.toList, .write m.runtime.toList, .write m.resources.toList]

/-- A slot. -/
def slotSteps (w : Width) (slot : Slot) : List Step :=
  require (slot.index.toNat ≤ Limit.slotIndex) (.slotIndexOutOfRange slot.index) ++
    require (slot.name.utf8ByteSize ≤ Limit.moduleName) (.moduleNameTooLong slot.name) ++
    [.write [slotByte slot]] ++ textSteps w "module name" slot.name

/-- A symbol. -/
def symbolSteps (w : Width) (symbol : SymbolEntry) : List Step :=
  require (symbol.index.toNat ≤ Limit.symbolIndex) (.symbolIndexOutOfRange symbol.index) ++
    [.write [symbol.index]] ++ blobSteps w "symbol body" symbol.body

/-- All steps of writing a container. -/
def steps (c : Container) : List Step :=
  let w := c.type.width
  typeSteps c.type ++ metadataSteps w c.metadata ++
    countSteps c.slots.length Limit.slots (.tooManySlots c.slots.length) ++
    c.slots.flatMap (slotSteps w) ++
    countSteps c.constants.length Limit.constants (.tooManyConstants c.constants.length) ++
    c.constants.flatMap (blobSteps w "constant") ++
    countSteps c.symbols.length Limit.symbols (.tooManySymbols c.symbols.length) ++
    c.symbols.flatMap (symbolSteps w)

theorem writeBlob_eq (w : Width) (what : String) (bytes : Bytes) :
    writeBlob w what bytes = perform (blobSteps w what bytes) := by
  rw [blobSteps, perform_append, perform_require, perform, perform_write]
  rfl

theorem writeText_eq (w : Width) (what s : String) :
    writeText w what s = perform (textSteps w what s) := by
  rw [textSteps, perform_append, perform_require, ← writeBlob_eq]
  rfl

theorem writeCount_eq (n limit : Nat) (e : Nat → WriteError) :
    writeCount n limit e = perform (countSteps n limit (e n)) := by
  rw [countSteps, perform_append, perform_require, perform_write]
  rfl

theorem writeType_eq (type : ContainerType) : writeType type = perform (typeSteps type) := by
  rw [typeSteps, perform, perform, perform, perform_write]
  rfl

theorem writeMetadata_eq (w : Width) (m : Metadata) :
    writeMetadata w m = perform (metadataSteps w m) := by
  simp only [metadataSteps, perform_append, ← writeText_eq, perform, bind_assoc, bind_pure_unit]
  rfl

theorem writeSlot_eq (w : Width) (slot : Slot) :
    writeSlot w slot = perform (slotSteps w slot) := by
  simp only [slotSteps, perform_append, perform_require, perform_write, ← writeText_eq, bind_assoc]
  rfl

theorem writeSymbol_eq (w : Width) (symbol : SymbolEntry) :
    writeSymbol w symbol = perform (symbolSteps w symbol) := by
  simp only [symbolSteps, perform_append, perform_require, perform_write, ← writeBlob_eq,
    bind_assoc]
  rfl

/-- Writing a container is performing its steps. -/
theorem writeParts_eq (c : Container) : writeParts c = perform c.steps := by
  simp only [steps, perform_append, ← writeType_eq, ← writeMetadata_eq, ← writeCount_eq,
    ← perform_flatMap (writeSlot_eq c.type.width),
    ← perform_flatMap (writeBlob_eq c.type.width "constant"),
    ← perform_flatMap (writeSymbol_eq c.type.width), bind_assoc]
  rfl

/-! ### Bytes and checks -/

/-- The bytes of a step. -/
def Step.bytes : Step → Bytes
  | write bytes => bytes
  | reject _ => []

/-- The bytes of steps, one after the other. -/
def output (steps : List Step) : Bytes := steps.flatMap Step.bytes

/-- No check has failed. -/
def Accepted (steps : List Step) : Prop := ∀ e, .reject e ∉ steps

@[simp] theorem output_nil : output [] = [] := rfl

@[simp] theorem output_write_cons (bytes : Bytes) (steps : List Step) :
    output (.write bytes :: steps) = bytes ++ output steps := rfl

@[simp] theorem output_append (steps steps' : List Step) :
    output (steps ++ steps') = output steps ++ output steps' := List.flatMap_append

@[simp] theorem output_require (holds : Bool) (e : WriteError) : output (require holds e) = [] := by
  cases holds <;> rfl

theorem output_flatMap {α : Type} (f : α → List Step) (xs : List α) :
    output (xs.flatMap f) = xs.flatMap fun x => output (f x) := List.flatMap_assoc

@[simp] theorem accepted_nil : Accepted [] := fun _ => List.not_mem_nil

@[simp] theorem accepted_write_cons (bytes : Bytes) (steps : List Step) :
    Accepted (.write bytes :: steps) ↔ Accepted steps := by
  simp [Accepted]

@[simp] theorem accepted_append (steps steps' : List Step) :
    Accepted (steps ++ steps') ↔ Accepted steps ∧ Accepted steps' := by
  simp only [Accepted, List.mem_append, not_or, forall_and]

@[simp] theorem accepted_require (holds : Bool) (e : WriteError) :
    Accepted (require holds e) ↔ holds = true := by
  cases holds <;> simp [require, Accepted]

theorem accepted_flatMap {α : Type} (f : α → List Step) (xs : List α) :
    Accepted (xs.flatMap f) ↔ ∀ x ∈ xs, Accepted (f x) := by
  simp only [Accepted, List.mem_flatMap, not_exists, not_and]
  exact ⟨fun h x hx e => h e x hx, fun h e x hx => h x hx e⟩

theorem accepted_countSteps (n limit : Nat) (e : WriteError) :
    Accepted (countSteps n limit e) ↔ n ≤ limit := by
  simp [countSteps]

/-! ### The first refusal -/

/-- Why a step is no bytes, if it is none. -/
def Step.error? : Step → Option WriteError
  | write _ => none
  | reject e => some e

/-- The first check among the steps that failed. -/
def refusal (steps : List Step) : Option WriteError := steps.findSome? Step.error?

@[simp] theorem refusal_nil : refusal [] = none := rfl

@[simp] theorem refusal_write_cons (bytes : Bytes) (steps : List Step) :
    refusal (.write bytes :: steps) = refusal steps := rfl

@[simp] theorem refusal_append (steps steps' : List Step) :
    refusal (steps ++ steps') = (refusal steps).or (refusal steps') := List.findSome?_append

@[simp] theorem refusal_require (holds : Bool) (e : WriteError) :
    refusal (require holds e) = if holds then none else some e := by
  cases holds <;> rfl

theorem refusal_eq_none_iff {steps : List Step} : refusal steps = none ↔ Accepted steps := by
  rw [refusal, List.findSome?_eq_none_iff]
  constructor
  · intro h e hmem
    cases h (.reject e) hmem
  · intro h step hstep
    cases step with
    | write bytes => rfl
    | reject e => exact absurd hstep (h e)

/-! ### An unbounded sink -/

/-- The steps in front of the first check that failed. -/
def reached (steps : List Step) : List Step := steps.takeWhile (·.error?.isNone)

@[simp] theorem reached_nil : reached [] = [] := rfl

@[simp] theorem reached_reject_cons (e : WriteError) (steps : List Step) :
    reached (.reject e :: steps) = [] := rfl

@[simp] theorem reached_write_cons (bytes : Bytes) (steps : List Step) :
    reached (.write bytes :: steps) = .write bytes :: reached steps := rfl

/-- Accepted steps are all reached. -/
theorem reached_of_accepted {steps : List Step} (h : Accepted steps) : reached steps = steps := by
  refine List.takeWhile_eq_self_iff.mpr fun step hstep => ?_
  cases step with
  | write bytes => rfl
  | reject e => exact absurd hstep (h e)

/-- Writing into an unbounded sink stops at the first check that failed. -/
theorem leaves_perform_none (pieces : List Bytes) (steps : List Step) :
    leaves (perform steps) ⟨pieces, none⟩ =
      ⟨pieces.reverse.flatten ++ output (reached steps), refusal steps⟩ := by
  induction steps generalizing pieces with
  | nil =>
    rw [reached_nil, output_nil, List.append_nil]
    rfl
  | cons step steps ih =>
    cases step with
    | reject e =>
      rw [reached_reject_cons, output_nil, List.append_nil]
      rfl
    | write bytes =>
      have hput : put bytes ⟨pieces, none⟩ = .ok () ⟨bytes :: pieces, none⟩ := rfl
      rw [leaves, perform, estate_bind_of_ok hput]
      refine (ih (bytes :: pieces)).trans ?_
      simp

theorem writeTo_none (c : Container) :
    c.writeTo none = ⟨output (reached c.steps), refusal c.steps⟩ := by
  rw [writeTo, writeParts_eq]
  exact leaves_perform_none [] c.steps

/-- A container has its bytes, or is refused for the first check that failed. -/
theorem toBytes_eq (c : Container) :
    c.toBytes = match refusal c.steps with
      | some e => .error e
      | none => .ok (output c.steps) := by
  rw [toBytes, writeTo_none]
  cases h : refusal c.steps with
  | some e => rfl
  | none =>
    have hacc : Accepted c.steps := refusal_eq_none_iff.mp h
    rw [reached_of_accepted hacc]

/-- A container has bytes exactly if its steps are accepted, and then they are the bytes of the
steps. -/
theorem toBytes_eq_ok_iff (c : Container) (bytes : Bytes) :
    c.toBytes = .ok bytes ↔ Accepted c.steps ∧ bytes = output c.steps := by
  rw [toBytes_eq, ← refusal_eq_none_iff]
  cases refusal c.steps with
  | some e => simp
  | none => simp [eq_comm]

end StackAsm.Container
