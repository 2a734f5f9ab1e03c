import StackAsm.Proofs.Declaration.Reading

/-!
# Constants that are declared by lists

A constant of bytes or of numbers is declared by a name and a list of values. Its line is accepted
exactly if the name is free, the list is written as lists are, and every value is one that the
constant takes; what remains then is whether the pool has room for it. What is registered are the
bytes of the values one after the other, so that of numbers each is found at its own place.
-/

namespace StackAsm.Declaration

variable {w : Width} {kind : ConstantKind} {elements : List Element}

/-! ### Lists that a constant takes -/

/-- The elements make up the items, and the constant takes their values. -/
structure MakesUp (w : Width) (kind : ConstantKind) (elements : List Element)
    (items : List Item) : Prop where
  separated : Separated elements items
  balanced : Balanced 0 items
  admitted : ∀ e ∈ elements, kind.Admits w e.value

theorem isLiteral_of_admits {item : Item} (h : kind.Admits w item) : item.isLiteral = true := by
  cases item with
  | number | text => rfl
  | _ => cases kind <;> cases h

theorem MakesUp.map_value {items : List Item} (h : MakesUp w kind elements items) :
    elements.map (·.value) = items.filter Item.isLiteral :=
  h.separated.map_value fun e he => isLiteral_of_admits (h.admitted e he)

theorem exists_makesUp_iff {items : List Item} :
    Completes .beforeValue 0 items ∧ (∀ item ∈ items.filter Item.isLiteral, kind.Admits w item) ↔
      ∃ elements, MakesUp w kind elements items := by
  rw [completes_iff]
  constructor
  · rintro ⟨⟨elements, hseparated, hbalanced, hliteral⟩, hadmits⟩
    rw [← hseparated.map_value hliteral, List.forall_mem_map] at hadmits
    exact ⟨elements, hseparated, hbalanced, hadmits⟩
  · rintro ⟨elements, h⟩
    rw [← h.map_value, List.forall_mem_map]
    exact ⟨⟨elements, h.separated, h.balanced, fun e he => isLiteral_of_admits (h.admitted e he)⟩,
      h.admitted⟩

/-! ### What a constant holds -/

/-- The bytes of a value: a byte as itself, a text as it is encoded, a number as wide as the
container. -/
inductive Holds (w : Width) : ConstantKind → Item → Bytes → Prop where
  | byte {n : Int64} {b : UInt8} (same : (b.toNat : Int) = n.toInt) : Holds w .data (.number n) [b]
  | text (s : String) : Holds w .data (.text s) (utf8 s)
  | number (n : Int64) : Holds w .values (.number n) (w.encode n.toUInt64)

theorem holds_literalBytes {item : Item} (hkind : kind ≠ .string) (h : kind.Admits w item) :
    Holds w kind item (kind.literalBytes w item) := by
  cases kind with
  | string => exact absurd rfl hkind
  | data =>
    cases item with
    | number n => exact .byte (Width.toNat_lowByte h.1 h.2)
    | text s => exact .text s
    | _ => cases h
  | values =>
    cases item with
    | number n => exact .number n
    | _ => cases h

theorem MakesUp.forall₂_holds {items : List Item} (h : MakesUp w kind elements items)
    (hkind : kind ≠ .string) :
    List.Forall₂ (fun e piece => Holds w kind (Element.value e) piece) elements
      (elements.map (kind.literalBytes w ·.value)) := by
  rw [List.forall₂_map_right_iff, List.forall₂_same]
  exact fun e he => holds_literalBytes hkind (h.admitted e he)

theorem MakesUp.flatten_literalBytes {items : List Item} (h : MakesUp w kind elements items) :
    (elements.map (kind.literalBytes w ·.value)).flatten =
      items.flatMap (kind.literalBytes w) := by
  rw [← flatMap_filter_isLiteral, ← h.map_value, List.flatMap_map, List.flatMap_def]

/-- Of numbers, each is found at its own place. -/
theorem decode_drop_flatten {pieces : List Bytes}
    (h : List.Forall₂ (fun e piece => Holds w .values (Element.value e) piece) elements pieces)
    {i : Nat} {e : Element} (he : elements[i]? = some e) :
    ∃ n raw, e.value = .number n ∧ w.decode (pieces.flatten.drop (i * w.bytes)) = some raw ∧
      (raw.toNat : Int) = n.toInt % 2 ^ w.bits := by
  induction h generalizing i with
  | nil => cases he
  | @cons first piece elements pieces hfirst _ ih =>
    obtain ⟨opened, value, closed⟩ := first
    cases hfirst with
    | number n =>
      rw [List.flatten_cons]
      cases i with
      | zero =>
        cases he
        have hmask := w.toNat_mask_ofInt n.toInt
        rw [Int64.ofInt_toInt] at hmask
        rw [Nat.zero_mul, List.drop_zero]
        exact ⟨n, _, rfl, w.decode_encode_append _ _, hmask⟩
      | succ i =>
        rw [List.getElem?_cons_succ] at he
        rw [Nat.succ_mul, Nat.add_comm, ← List.drop_drop, List.drop_left' (w.length_encode _)]
        exact ih he

/-! ### Lines -/

theorem accepts_list {bytesOf : Located Item → Except (Located Error) Bytes}
    (hbytes : Encodes w kind bytesOf) (name : String) (args : Arguments) :
    Accepts (∃ elements, MakesUp w kind elements args.values)
      (· = (constant kind name (args.values.flatMap (kind.literalBytes w)),
        { args with rest := [] }))
      (·.value.isPool = false)
      (readBytes bytesOf args >>= fun p => .ok (constant kind name p.1, p.2)) := by
  refine ((accepts_readBytes hbytes args).congr exists_makesUp_iff).bind_ok ?_
  rintro p rfl
  rfl

/-- Behind a free name and a separator, a list is read exactly if the constant takes it. -/
theorem accepts_readConstant {session : Session} {args : Arguments} {name : String} {c : Char}
    {items : List Item} (hkind : kind ≠ .string)
    (hargs : args.values = .word name :: .separator c :: items)
    (hfree : session.isTaken name = false) :
    Accepts (∃ elements, MakesUp session.type.width kind elements items)
      (· = (.constant kind name (items.flatMap (kind.literalBytes session.type.width)),
        { args with rest := [] }))
      (·.value.isPool = false) (readConstant session kind args) := by
  obtain ⟨last, rest⟩ := args
  obtain ⟨⟨nameLoc, _⟩, rest, rfl, rfl, hrest⟩ := List.map_eq_cons_iff.mp hargs
  obtain ⟨⟨separatorLoc, _⟩, rest, rfl, rfl, rfl⟩ := List.map_eq_cons_iff.mp hrest
  have hname : readName ⟨last, ⟨nameLoc, .word name⟩ :: ⟨separatorLoc, .separator c⟩ :: rest⟩ =
    .ok (⟨nameLoc, name⟩, ⟨last, ⟨separatorLoc, .separator c⟩ :: rest⟩) := rfl
  have hrequire (args : Arguments) : requireFree session ⟨nameLoc, name⟩ args = .ok ((), args) := by
    rw [requireFree, hfree]
    rfl
  have hseparator :
    readSeparator ⟨last, ⟨separatorLoc, .separator c⟩ :: rest⟩ = .ok ((), ⟨last, rest⟩) := rfl
  unfold readConstant
  rw [stateT_bind_of_ok hname, stateT_bind_of_ok (hrequire _), stateT_bind_of_ok hseparator]
  cases kind with
  | string => exact absurd rfl hkind
  | data => exact accepts_list (encodes_dataBytes _) name ⟨last, rest⟩
  | values => exact accepts_list (encodes_valueBytes _) name ⟨last, rest⟩

/-- The line was read, or it was but for what the pool says. -/
def acceptedUpToPool : EStateM.Result (Located Error) State Unit → Bool
  | .ok _ _ => true
  | .error e _ => e.value.isPool

/-- The constant is registered in the pool under the name, or refused by the pool where the line
starts. -/
def Registers (s : State) (loc : Option Location) (kind : ConstantKind) (name : String)
    (bytes : Bytes) : EStateM.Result (Located Error) State Unit → Prop
  | .ok _ s' => ∃ index pool, s.session.pool.register bytes = .ok (index, pool) ∧
      (s.session.pool.WellFormed → pool.get? index = some bytes) ∧
      s'.session = { s.session with pool }.refer name (.constant index kind) ∧
      s'.deferred = s.deferred
  | .error e s' => ∃ refusal, s.session.pool.register bytes = .error refusal ∧
      e = ⟨loc, .pool refusal⟩ ∧ s'.session = s.session ∧ s'.deferred = s.deferred

theorem Registers.acceptedUpToPool {s : State} {loc : Option Location} {name : String}
    {bytes : Bytes} {outcome : EStateM.Result (Located Error) State Unit}
    (h : Registers s loc kind name bytes outcome) : acceptedUpToPool outcome = true := by
  cases outcome with
  | ok u s' => rfl
  | error e s' =>
    obtain ⟨refusal, -, rfl, -, -⟩ := h
    rfl

/-- A line with a list comes to the pool exactly if the constant takes the list. -/
theorem registers_readLine {s : State} {loc : Option Location} {rest : List (Located Item)}
    {directive name : String} {c : Char} {items : List Item} (hkind : kind ≠ .string)
    (hdirective : Keyword.ofName? directive = some (constantKeyword kind))
    (hrest : rest.map (·.value) = .word name :: .separator c :: items)
    (hfree : s.session.isTaken name = false) :
    let outcome := readLine ⟨loc, .directive directive⟩ rest s
    let w := s.session.type.width
    (∃ elements, MakesUp w kind elements items) ∧
        Registers s loc kind name (items.flatMap (kind.literalBytes w)) outcome ∨
      (¬∃ elements, MakesUp w kind elements items) ∧ acceptedUpToPool outcome = false := by
  have hread (args : Arguments) : ((constantKeyword kind).read s.session loc).run args =
      readConstant s.session kind args := by
    cases kind <;> rfl
  have haccepts : Accepts _ _ _
      (readConstant s.session kind (Arguments.ofLine ⟨loc, .directive directive⟩ rest)) :=
    accepts_readConstant hkind hrest hfree
  dsimp only
  rw [readLine_keyword hdirective, declareLine_eq, hread]
  cases hresult : readConstant s.session kind
      (Arguments.ofLine ⟨loc, .directive directive⟩ rest) with
  | error e =>
    rw [hresult] at haccepts
    exact .inr haccepts
  | ok p =>
    obtain ⟨hmakes, rfl⟩ := haccepts.of_eq_ok hresult
    refine .inl ⟨hmakes, ?_⟩
    dsimp only [apply]
    cases hregister : s.session.pool.register
        (items.flatMap (kind.literalBytes s.session.type.width)) with
    | error refusal => exact ⟨refusal, hregister, rfl, rfl, rfl⟩
    | ok q => exact ⟨q.1, q.2, hregister, fun hpool => hpool.get?_register hregister, rfl, rfl⟩

/-- **Lists are accepted exactly as they are to be written, and registered value by value.** A line
declares a constant of bytes or of numbers under a free name. But for what the pool says, it is
accepted if and only if what follows the separator is made up of elements with balanced brackets
whose values the constant takes. Registered are the bytes of these values in order, and of numbers
the bytes of each stand at its place and give back the number up to a multiple of the range. -/
theorem readLine_constant {s : State} {loc : Option Location} {rest : List (Located Item)}
    {directive name : String} {c : Char} {items : List Item} (hkind : kind ≠ .string)
    (hdirective : Keyword.ofName? directive = some (constantKeyword kind))
    (hrest : rest.map (·.value) = .word name :: .separator c :: items)
    (hfree : s.session.isTaken name = false) :
    let outcome := readLine ⟨loc, .directive directive⟩ rest s
    let w := s.session.type.width
    (acceptedUpToPool outcome = true ↔ ∃ elements, MakesUp w kind elements items) ∧
      ∀ elements, MakesUp w kind elements items → ∃ pieces,
        List.Forall₂ (fun e piece => Holds w kind (Element.value e) piece) elements pieces ∧
        Registers s loc kind name pieces.flatten outcome ∧
        (kind = .values → ∀ i e, elements[i]? = some e → ∃ n raw, e.value = .number n ∧
          w.decode (pieces.flatten.drop (i * w.bytes)) = some raw ∧
          (raw.toNat : Int) = n.toInt % 2 ^ w.bits) := by
  intro outcome w
  rcases registers_readLine hkind hdirective hrest hfree with
    ⟨hmakes, hregisters⟩ | ⟨hnone, hrefused⟩
  · refine ⟨iff_of_true hregisters.acceptedUpToPool hmakes, fun elements hmakes => ?_⟩
    have hholds := hmakes.forall₂_holds hkind
    refine ⟨elements.map (kind.literalBytes w ·.value), hholds, ?_, ?_⟩
    · rwa [hmakes.flatten_literalBytes]
    · rintro rfl i e he
      exact decode_drop_flatten hholds he
  · exact ⟨iff_of_false (Bool.eq_false_iff.mp hrefused) hnone,
      fun elements hmakes => absurd ⟨elements, hmakes⟩ hnone⟩

/-- Two numbers in a bracket, and with another one in a further bracket. -/
def nestedNumbers : List Item :=
  [.bracketOpen, .bracketOpen, .number 1, .separator ',', .number (-2), .bracketClose,
    .separator ',', .number 65535, .bracketClose]

theorem readLine_constant_nestedNumbers :
    let s : State := { session := { type := ⟨.executable, .w16⟩ } }
    let rest := List.map Located.nowhere (.word "v" :: .separator ',' :: nestedNumbers)
    let elements : List Element :=
      [⟨2, .number 1, 0⟩, ⟨0, .number (-2), 1⟩, ⟨0, .number 65535, 1⟩]
    let outcome := readLine ⟨none, .directive "values"⟩ rest s
    MakesUp .w16 .values elements nestedNumbers ∧ acceptedUpToPool outcome = true ∧ ∃ pieces,
      List.Forall₂ (fun e piece => Holds .w16 .values (Element.value e) piece) elements pieces ∧
      Registers s none .values "v" pieces.flatten outcome := by
  intro s rest elements outcome
  have hmakes : MakesUp .w16 .values elements nestedNumbers := by
    refine ⟨.cons _ ',' (.cons _ ',' (.last _)), by decide, ?_⟩
    simp [elements, ConstantKind.Admits, Width.bits]
  have hdirective : Keyword.ofName? "values" = some (constantKeyword .values) := by decide
  have hrest : rest.map (·.value) = .word "v" :: .separator ',' :: nestedNumbers := rfl
  have hfree : s.session.isTaken "v" = false := by decide
  obtain ⟨haccepted, hpieces⟩ := readLine_constant (by decide) hdirective hrest hfree
  obtain ⟨pieces, hholds, hregisters, -⟩ := hpieces elements hmakes
  exact ⟨hmakes, haccepted.mpr ⟨elements, hmakes⟩, pieces, hholds, hregisters⟩

end StackAsm.Declaration
