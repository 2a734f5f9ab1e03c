import StackAsm.Proofs.Container.Canonical

/-!
# Containers say where they end

A reader that has made a value of some bytes makes the same value of the bytes it has taken,
whatever follows them, and runs out of bytes on every shorter beginning of them: the checks on the
way see the same bytes as before, so none of them can fail first. This goes from the fields of a
container to the whole. So nothing can be cut off a container or put behind it without being
noticed, and the error tells the one from the other.
-/

namespace StackAsm.Container

/-! ### Readers that delimit their values -/

section

variable {α β : Type} {r : Reader α} {f : α → Reader β} {bs front rest : Bytes} {x : α}

/-- The bytes end before the value does. -/
def RunsOut (r : Reader α) (bs : Bytes) : Prop := ∃ what, r bs = .error (.truncated what)

/-- The reader makes `x` of exactly the bytes `front`, and runs out of bytes on less. -/
structure ReadsAll (r : Reader α) (front : Bytes) (x : α) : Prop where
  reads : Reads r front x
  runsOut : ∀ ⦃p q⦄, front = p ++ q → q ≠ [] → RunsOut r p

/-- Whatever the reader makes of some bytes, it makes of a beginning of them, and of nothing
less. -/
def Delimits (r : Reader α) : Prop :=
  ∀ ⦃bs x rest⦄, r bs = .ok (x, rest) → ∃ front, bs = front ++ rest ∧ ReadsAll r front x

theorem ReadsAll.of_nil (h : Reads r [] x) : ReadsAll r [] x where
  reads := h
  runsOut _ _ hpq hq := absurd (List.append_eq_nil_iff.mp hpq.symm).2 hq

theorem delimits_pure (x : α) : Delimits (pure x : Reader α) := by
  intro bs y rest h
  cases h
  exact ⟨[], rfl, .of_nil (Reads.pure x)⟩

theorem delimits_throw (e : ReadError) : Delimits (throw e : Reader α) := by
  intro bs x rest h
  cases h

theorem RunsOut.bind (h : RunsOut r bs) : RunsOut (r >>= f) bs := by
  obtain ⟨what, h⟩ := h
  exact ⟨what, by simp only [Bind.bind, StateT.bind, h, Except.bind]⟩

theorem Reads.runsOut_bind (h : Reads r front x) (h' : RunsOut (f x) bs) :
    RunsOut (r >>= f) (front ++ bs) := by
  obtain ⟨what, h'⟩ := h'
  refine ⟨what, ?_⟩
  simp only [Bind.bind, StateT.bind, h bs, Except.bind]
  exact h'

/-- One value after the other: a cut lies in the bytes of the first or in those of the second. -/
theorem ReadsAll.bind {front' : Bytes} {y : β} (h : ReadsAll r front x)
    (h' : ReadsAll (f x) front' y) : ReadsAll (r >>= f) (front ++ front') y where
  reads := h.reads.bind h'.reads
  runsOut p q hpq hq := by
    rcases List.append_eq_append_iff.mp hpq with ⟨p', rfl, hfront'⟩ | ⟨q', hfront, rfl⟩
    · exact h.reads.runsOut_bind (h'.runsOut hfront' hq)
    · by_cases hq' : q' = []
      · -- the cut is where the second value starts
        subst hq'
        rw [List.append_nil] at hfront
        subst hfront
        have hout := h.reads.runsOut_bind (h'.runsOut (List.nil_append front').symm hq)
        rwa [List.append_nil] at hout
      · exact (h.runsOut hfront hq').bind

theorem Delimits.bind (h : Delimits r) (h' : ∀ x, Delimits (f x)) : Delimits (r >>= f) := by
  intro bs y rest hread
  obtain ⟨x, mid, hx, hy⟩ := stateT_bind_eq_ok.mp hread
  obtain ⟨front, rfl, hfront⟩ := h hx
  obtain ⟨front', rfl, hfront'⟩ := h' x hy
  exact ⟨front ++ front', (List.append_assoc ..).symm, hfront.bind hfront'⟩

theorem Delimits.ite {c : Prop} [Decidable c] {r' : Reader α} (h : Delimits r) (h' : Delimits r') :
    Delimits (if c then r else r') := by
  by_cases hc : c
  · rwa [if_pos hc]
  · rwa [if_neg hc]

/-- A check in front of the rest of a reader. -/
theorem Delimits.guard {c : Prop} [Decidable c] {e : ReadError} {k : Unit → Reader α}
    (h : Delimits (k ())) : Delimits (if c then throw e >>= k else k ()) :=
  .ite ((delimits_throw e).bind fun ⟨⟩ => h) h

theorem Delimits.many (h : Delimits r) (n : Nat) : Delimits (readMany r n) := by
  induction n with
  | zero => exact delimits_pure []
  | succ n ih => exact h.bind fun x => ih.bind fun xs => delimits_pure (x :: xs)

end

/-! ### Fields -/

theorem delimits_bytes (what : String) (n : Nat) : Delimits (readBytes what n) := by
  intro bs x rest h
  obtain ⟨rfl, rfl⟩ := readBytes_eq_ok h
  refine ⟨x, rfl, reads_bytes what x, ?_⟩
  intro p q hpq hq
  have hlt : p.length < x.length := by
    have := List.length_pos_iff.mpr hq
    rw [hpq, List.length_append]
    omega
  refine ⟨what, ?_⟩
  rw [readBytes, List.take_of_length_le (Nat.le_of_lt hlt)]
  exact if_neg (Nat.ne_of_lt hlt)

theorem delimits_byte (what : String) : Delimits (readByte what) := by
  intro bs b rest h
  refine ⟨[b], readByte_eq_ok h, reads_byte what b, ?_⟩
  intro p q hpq hq
  cases p with
  | nil => exact ⟨what, rfl⟩
  | cons a p => simp_all

theorem delimits_triple (what : String) : Delimits (readTriple what) := by
  intro bs t rest h
  refine ⟨t.toList, readTriple_eq_ok h, reads_triple what t, ?_⟩
  intro p q hpq hq
  have hlt : p.length < 3 := by
    have := List.length_pos_iff.mpr hq
    have hlength : t.toList.length = 3 := rfl
    rw [hpq, List.length_append] at hlength
    omega
  match p, hlt with
  | [], _ => exact ⟨what, rfl⟩
  | [_], _ => exact ⟨what, rfl⟩
  | [_, _], _ => exact ⟨what, rfl⟩

theorem delimits_number (w : Width) (what : String) : Delimits (readNumber w what) := by
  refine (delimits_bytes what w.bytes).bind fun bytes => ?_
  cases w.decode bytes with
  | none => exact delimits_throw _
  | some n => exact delimits_pure n

theorem delimits_blob (w : Width) (what : String) : Delimits (readBlob w what) :=
  (delimits_number w what).bind fun length => delimits_bytes what length.toNat

theorem delimits_text (w : Width) (what : String) : Delimits (readText w what) :=
  (delimits_blob w what).bind fun _ => .ite (delimits_pure _) (delimits_throw _)

/-! ### Parts -/

theorem delimits_type : Delimits readType := by
  refine (delimits_bytes "magic" magic.length).bind fun start => .guard ?_
  refine (delimits_triple "type tag").bind fun tag => .guard ?_
  cases kindOfTag? tag.third with
  | none => exact delimits_throw _
  | some kind =>
    refine (delimits_byte "type flags").bind fun flags => ?_
    cases widthOfFlags? flags with
    | none => exact delimits_throw _
    | some width => exact .ite (delimits_pure _) (delimits_throw _)

theorem delimits_metadata (w : Width) : Delimits (readMetadata w) := by
  refine (delimits_text w "title").bind fun title => ?_
  refine (delimits_text w "description").bind fun description => ?_
  refine (delimits_text w "author").bind fun author => ?_
  refine (delimits_triple "version").bind fun version => ?_
  refine (delimits_triple "runtime version").bind fun runtime => ?_
  exact (delimits_triple "resource sizes").bind fun resources => delimits_pure _

theorem delimits_slot (w : Width) : Delimits (readSlot w) := by
  refine (delimits_byte "slot table").bind fun raw => .guard ?_
  exact (delimits_text w "module name").bind fun name => delimits_pure _

theorem delimits_symbol (w : Width) : Delimits (readSymbol w) := by
  refine (delimits_byte "symbol table").bind fun index => .guard ?_
  exact (delimits_blob w "symbol table").bind fun body => delimits_pure _

theorem delimits_parts : Delimits readParts := by
  refine delimits_type.bind fun type => ?_
  refine (delimits_metadata type.width).bind fun metadata => ?_
  refine Delimits.bind (r := readSlots type.width) ?_ fun slots => ?_
  · exact (delimits_byte "slot table").bind fun count => .guard ((delimits_slot _).many _)
  refine Delimits.bind (r := readConstants type.width) ?_ fun constants => ?_
  · exact (delimits_byte "constant table").bind fun count => (delimits_blob _ _).many _
  refine Delimits.bind (r := readSymbols type.width) ?_ fun symbols => delimits_pure _
  exact (delimits_byte "symbol table").bind fun count => (delimits_symbol _).many _

/-! ### Containers -/

theorem ofBytes_of_runsOut {bs : Bytes} (h : RunsOut readParts bs) :
    ∃ what, ofBytes bs = .error (.truncated what) := by
  obtain ⟨what, h⟩ := h
  exact ⟨what, by simp only [ofBytes, h, Bind.bind, Except.bind]⟩

/-- **Containers delimit themselves**: of a container, every strict beginning is refused as
truncated, and anything put behind it is refused as that many trailing bytes. -/
theorem ofBytes_delimited {x : Bytes} {c : Container} (h : ofBytes x = .ok c) :
    (∀ p, p <+: x → p ≠ x → ∃ what, ofBytes p = .error (.truncated what)) ∧
      ∀ y, y ≠ [] → ofBytes (x ++ y) = .error (.trailingBytes y.length) := by
  obtain ⟨front, hx, hfront⟩ := delimits_parts (ofBytes_eq_ok_iff.mp h)
  rw [List.append_nil] at hx
  subst hx
  constructor
  · rintro p ⟨q, rfl⟩ hne
    refine ofBytes_of_runsOut (hfront.runsOut rfl ?_)
    rintro rfl
    exact hne (List.append_nil p).symm
  · intro y hy
    simp only [ofBytes, hfront.reads y, Bind.bind, Except.bind, if_neg hy]
    rfl

/-- The long named executable without its last byte, and with two bytes behind it. -/
theorem ofBytes_delimited_longNamed :
    ofBytes longNamedBytes = .ok longNamed ∧
      (∃ what, ofBytes longNamedBytes.dropLast = .error (.truncated what)) ∧
      ofBytes (longNamedBytes ++ [0, 1]) = .error (.trailingBytes 2) :=
  have hread : ofBytes longNamedBytes = .ok longNamed := by decide
  ⟨hread, (ofBytes_delimited hread).1 _ (List.dropLast_prefix _) (by decide),
    (ofBytes_delimited hread).2 [0, 1] (by decide)⟩

end StackAsm.Container
