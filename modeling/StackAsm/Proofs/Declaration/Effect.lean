import StackAsm.Declaration
import StackAsm.Proofs.Declaration.Elements
import StackAsm.Proofs.Width
import Mathlib.Data.List.Basic

/-!
# What a declaration does

A declaration is read from the items after its directive and then carried out. Here is said, for
every keyword, what those items were, what was checked of them, and what becomes of the session.
-/

namespace StackAsm

/-- The bytes that an item adds to a constant: those of a literal that the kind of constant takes,
and none otherwise. -/
def ConstantKind.literalBytes (w : Width) : ConstantKind → Item → Bytes
  | .data, .number n => [n.toUInt64.toUInt8]
  | .values, .number n => w.encode n.toUInt64
  | .data, .text s | .string, .text s => Declaration.utf8 s
  | _, _ => []

/-- The items that a constant takes: a byte has to be a byte, and a number has to fit into the
width, with or without a sign. -/
def ConstantKind.Admits (w : Width) : ConstantKind → Item → Prop
  | .data, .number n => 0 ≤ n.toInt ∧ n.toInt ≤ 255
  | .values, .number n => -2 ^ (w.bits - 1) ≤ n.toInt ∧ n.toInt ≤ 2 ^ w.bits - 1
  | .data, .text _ | .string, .text _ => True
  | _, _ => False

namespace Declaration

/-! ### Readers -/

variable {β : Type} {args args' : Arguments}

/-- A reader that goes on from the next item has an item to go on from. -/
theorem readItem_bind_eq_ok {expected : String} {f : Located Item → Read β} {b : β}
    (h : (readItem expected >>= f) args = .ok (b, args')) :
    ∃ item args₁, args.values = item.value :: args₁.values ∧ f item args₁ = .ok (b, args') := by
  obtain ⟨item, args₁, hitem, h⟩ := stateT_bind_eq_ok.mp h
  unfold readItem at hitem
  split at hitem
  · cases hitem
  · next hrest =>
    cases hitem
    exact ⟨_, _, by simp [Arguments.values, hrest], h⟩

theorem readName_eq_ok {name : Located String} (h : readName args = .ok (name, args')) :
    args.values = .word name.value :: args'.values := by
  obtain ⟨⟨loc, value⟩, args₁, hvalues, h⟩ := readItem_bind_eq_ok h
  cases value with
  | word name => cases h; exact hvalues
  | _ => cases h

theorem readNumber_eq_ok {expected : String} {n : Located Int64}
    (h : readNumber expected args = .ok (n, args')) :
    args.values = .number n.value :: args'.values := by
  obtain ⟨⟨loc, value⟩, args₁, hvalues, h⟩ := readItem_bind_eq_ok h
  cases value with
  | number n => cases h; exact hvalues
  | _ => cases h

theorem readText_eq_ok {s : String} (h : readText args = .ok (s, args')) :
    args.values = .text s :: args'.values := by
  obtain ⟨⟨loc, value⟩, args₁, hvalues, h⟩ := readItem_bind_eq_ok h
  cases value with
  | text content => cases h; exact hvalues
  | _ => cases h

theorem readSeparator_eq_ok {u : Unit} (h : readSeparator args = .ok (u, args')) :
    ∃ c, args.values = .separator c :: args'.values := by
  obtain ⟨⟨loc, value⟩, args₁, hvalues, h⟩ := readItem_bind_eq_ok h
  cases value with
  | separator c => cases h; exact ⟨c, hvalues⟩
  | _ => cases h

theorem requireFree_bind_eq_ok {session : Session} {name : Located String} {f : Unit → Read β}
    {b : β} (h : (requireFree session name >>= f) args = .ok (b, args')) :
    session.isTaken name.value = false ∧ f () args = .ok (b, args') := by
  obtain ⟨⟨⟩, args₁, hfree, h⟩ := stateT_bind_eq_ok.mp h
  unfold requireFree at hfree
  split at hfree
  · cases hfree
  · next hnot =>
    cases hfree
    exact ⟨Bool.eq_false_iff.mpr hnot, h⟩

/-! ### Constants -/

theorem literalBytes_eq_nil {w : Width} {kind : ConstantKind} {item : Item}
    (h : item.isLiteral = false) : kind.literalBytes w item = [] := by
  cases item with
  | number | text => cases h
  | _ => cases kind <;> rfl

/-- Only literals add bytes. -/
theorem flatMap_filter_isLiteral (w : Width) (kind : ConstantKind) (items : List Item) :
    (items.filter Item.isLiteral).flatMap (kind.literalBytes w) =
      items.flatMap (kind.literalBytes w) := by
  induction items with
  | nil => rfl
  | cons item items ih =>
    cases hitem : item.isLiteral with
    | true => rw [List.filter_cons_of_pos hitem, List.flatMap_cons, List.flatMap_cons, ih]
    | false =>
      rw [List.filter_cons_of_neg (by simp [hitem]), ih, List.flatMap_cons,
        literalBytes_eq_nil hitem, List.nil_append]

/-- The function finds the bytes of exactly the items that the constant takes. -/
def Encodes (w : Width) (kind : ConstantKind)
    (bytesOf : Located Item → Except (Located Error) Bytes) : Prop :=
  ∀ item, Accepts (kind.Admits w item.value) (· = kind.literalBytes w item.value)
    (·.value.isPool = false) (bytesOf item)

theorem encodes_dataBytes (w : Width) : Encodes w .data dataBytes := by
  rintro ⟨loc, value⟩
  cases value with
  | number n =>
    have hfits : fitsByte n = true ↔ 0 ≤ n.toInt ∧ n.toInt ≤ 255 := by simp [fitsByte]
    exact .ite hfits rfl rfl
  | text s => exact ⟨trivial, rfl⟩
  | _ => exact ⟨id, rfl⟩

theorem encodes_valueBytes (w : Width) : Encodes w .values (valueBytes w) := by
  rintro ⟨loc, value⟩
  cases value with
  | number n => exact .ite (w.fitsValue_iff n) rfl rfl
  | _ => exact ⟨id, rfl⟩

theorem mapM_liftM (f : α → Except (Located Error) β) (xs : List α) (args : Arguments) :
    (xs.mapM fun x => (liftM (f x) : Read β)) args = xs.mapM f >>= fun ys => .ok (ys, args) := by
  induction xs with
  | nil => rfl
  | cons x xs ih =>
    rw [List.mapM_cons, List.mapM_cons]
    cases f x with
    | error e => rfl
    | ok y =>
      show ((xs.mapM fun x => (liftM (f x) : Read β)) args >>= fun p => .ok (y :: p.1, p.2)) = _
      rw [ih]
      cases xs.mapM f with
      | error e => rfl
      | ok ys => rfl

/-- A list of values is read exactly if it is complete and the constant takes its literals. What it
holds are the bytes of the literals. -/
theorem accepts_readBytes {w : Width} {kind : ConstantKind}
    {bytesOf : Located Item → Except (Located Error) Bytes} (hbytes : Encodes w kind bytesOf)
    (args : Arguments) :
    Accepts
      (Completes .beforeValue 0 args.values ∧
        ∀ item ∈ args.values.filter Item.isLiteral, kind.Admits w item)
      (· = (args.values.flatMap (kind.literalBytes w), { args with rest := [] }))
      (·.value.isPool = false) (readBytes bytesOf args) := by
  refine (accepts_readElements args).bind fun p hread => ?_
  obtain ⟨elements, args'⟩ := p
  obtain ⟨helements, rfl⟩ : elements.map (·.value) = args.values.filter Item.isLiteral ∧
    args' = { args with rest := [] } := hread
  show Accepts _ _ _ ((elements.mapM fun item => (liftM (bytesOf item) : Read Bytes)) _ >>=
    fun p => .ok (p.1.flatten, p.2))
  rw [mapM_liftM, bind_assoc]
  refine ((Accepts.mapM hbytes elements).bind_ok ?_).congr ?_
  · rintro pieces rfl
    rw [← List.flatMap_def, ← flatMap_filter_isLiteral, ← helements, List.flatMap_map]
  · rw [← helements, List.forall_mem_map]

/-- A constant is a free name, a separator and literals, and holds the bytes of the literals. -/
theorem readConstant_eq_ok {session : Session} {kind : ConstantKind} {declaration : Declaration}
    (h : readConstant session kind args = .ok (declaration, args')) :
    ∃ name c content, args.values = .word name :: .separator c :: (content ++ args'.values) ∧
      session.isTaken name = false ∧
      declaration =
        .constant kind name (content.flatMap (kind.literalBytes session.type.width)) := by
  obtain ⟨name, args₁, hname, h⟩ := stateT_bind_eq_ok.mp h
  obtain ⟨hfree, h⟩ := requireFree_bind_eq_ok h
  obtain ⟨⟨⟩, args₂, hseparator, h⟩ := stateT_bind_eq_ok.mp h
  obtain ⟨c, hseparator⟩ := readSeparator_eq_ok hseparator
  have hcontent : ∃ content, args₂.values = content ++ args'.values ∧ declaration =
      .constant kind name.value (content.flatMap (kind.literalBytes session.type.width)) := by
    cases kind with
    | string =>
      obtain ⟨bytes, args₃, hbytes, h⟩ := stateT_bind_eq_ok.mp h
      cases h
      obtain ⟨s, hs, rfl⟩ := stateT_map_eq_ok.mp hbytes
      exact ⟨[.text s], readText_eq_ok hs, by simp [ConstantKind.literalBytes]⟩
    | data =>
      obtain ⟨bytes, args₃, hbytes, h⟩ := stateT_bind_eq_ok.mp h
      cases h
      obtain ⟨-, hread⟩ := (accepts_readBytes (encodes_dataBytes session.type.width) args₂).of_eq_ok
        hbytes
      cases hread
      exact ⟨args₂.values, by simp [Arguments.values], rfl⟩
    | values =>
      obtain ⟨bytes, args₃, hbytes, h⟩ := stateT_bind_eq_ok.mp h
      cases h
      obtain ⟨-, hread⟩ := (accepts_readBytes (encodes_valueBytes _) args₂).of_eq_ok hbytes
      cases hread
      exact ⟨args₂.values, by simp [Arguments.values], rfl⟩
  obtain ⟨content, hvalues, rfl⟩ := hcontent
  exact ⟨name.value, c, content, by rw [readName_eq_ok hname, hseparator, hvalues], hfree, rfl⟩

/-! ### Modules and external symbols -/

/-- A module is a plain and free name, a separator and a slot that is in range and free. -/
theorem readSlot_eq_ok {session : Session} {head : Option Location} {optional : Bool}
    {declaration : Declaration}
    (h : readSlot session head optional args = .ok (declaration, args')) :
    ∃ slot c n, args.values = .word slot.name :: .separator c :: .number n :: args'.values ∧
      (slot.index.toNat : Int) = n.toInt ∧ slot.index.toNat ≤ Limit.slotIndex ∧
      isModuleName slot.name ∧ (∀ other ∈ session.slots, other.index ≠ slot.index) ∧
      session.slots.length < Limit.slots ∧ session.isTaken slot.name = false ∧
      slot.optional = optional ∧ declaration = .slot slot := by
  obtain ⟨name, args₁, hname, h⟩ := stateT_bind_eq_ok.mp h
  obtain ⟨⟨⟩, args₂, hseparator, h⟩ := stateT_bind_eq_ok.mp h
  obtain ⟨n, args₃, hnumber, h⟩ := stateT_bind_eq_ok.mp h
  obtain ⟨hplain, h⟩ := stateT_guard_eq_ok.mp h
  obtain ⟨hrange, h⟩ := stateT_guard_eq_ok.mp h
  obtain ⟨hunclaimed, h⟩ := stateT_guard_eq_ok.mp h
  obtain ⟨hroom, h⟩ := stateT_guard_eq_ok.mp h
  obtain ⟨hfree, h⟩ := requireFree_bind_eq_ok h
  cases h
  obtain ⟨c, hseparator⟩ := readSeparator_eq_ok hseparator
  simp only [Bool.not_eq_true', Bool.not_eq_false, Bool.and_eq_true, decide_eq_true_eq] at hrange
  have hbyte := Width.toNat_lowByte hrange.1 (Int.le_trans hrange.2 (by decide))
  refine ⟨⟨name.value, n.value.toUInt64.toUInt8, optional⟩, c, n.value, ?_, hbyte, ?_, ?_, ?_,
    Nat.lt_of_not_le hroom, hfree, rfl, rfl⟩
  · rw [readName_eq_ok hname, hseparator, readNumber_eq_ok hnumber]
  · have hle := hrange.2
    show n.value.toUInt64.toUInt8.toNat ≤ Limit.slotIndex
    omega
  · simpa using hplain
  · simpa using hunclaimed

/-- An external symbol is a free name, a separator and an index in range. -/
theorem readExternal_eq_ok {session : Session} {declaration : Declaration}
    (h : readExternal session args = .ok (declaration, args')) :
    ∃ name c n index, args.values = .word name :: .separator c :: .number n :: args'.values ∧
      (index.toNat : Int) = n.toInt ∧ index.toNat ≤ Limit.symbolIndex ∧
      session.isTaken name = false ∧ declaration = .external name index := by
  obtain ⟨name, args₁, hname, h⟩ := stateT_bind_eq_ok.mp h
  obtain ⟨⟨⟩, args₂, hseparator, h⟩ := stateT_bind_eq_ok.mp h
  obtain ⟨n, args₃, hnumber, h⟩ := stateT_bind_eq_ok.mp h
  obtain ⟨hrange, h⟩ := stateT_guard_eq_ok.mp h
  obtain ⟨hfree, h⟩ := requireFree_bind_eq_ok h
  cases h
  obtain ⟨c, hseparator⟩ := readSeparator_eq_ok hseparator
  simp only [Bool.not_eq_true', Bool.not_eq_false, Bool.and_eq_true, decide_eq_true_eq] at hrange
  have hbyte := Width.toNat_lowByte hrange.1 (Int.le_trans hrange.2 (by decide))
  refine ⟨name.value, c, n.value, _, ?_, hbyte, ?_, hfree, rfl⟩
  · rw [readName_eq_ok hname, hseparator, readNumber_eq_ok hnumber]
  · have hle := hrange.2
    omega

/-- An instruction is a free name, which gives its mnemonic in lower case, a separator, and what it
looks like. -/
theorem readInstruction_eq_ok {session : Session} {declaration : Declaration}
    (h : readInstruction session args = .ok (declaration, args')) :
    ∃ name c items i, args.values = .word name :: .separator c :: items ∧
      session.isTaken name = false ∧ i.name = Text.lowercase name ∧
      declaration = .instruction i := by
  obtain ⟨name, args₁, hname, h⟩ := stateT_bind_eq_ok.mp h
  obtain ⟨⟨⟩, args₂, hseparator, h⟩ := stateT_bind_eq_ok.mp h
  obtain ⟨opcode, args₃, -, h⟩ := stateT_bind_eq_ok.mp h
  obtain ⟨now, args₄, -, h⟩ := stateT_bind_eq_ok.mp h
  obtain ⟨contracts, args₅, -, h⟩ := stateT_bind_eq_ok.mp h
  obtain ⟨⟨⟩, args₆, -, h⟩ := stateT_bind_eq_ok.mp h
  obtain ⟨hfree, h⟩ := requireFree_bind_eq_ok h
  cases h
  obtain ⟨c, hseparator⟩ := readSeparator_eq_ok hseparator
  refine ⟨name.value, c, args₂.values, _, ?_, hfree, rfl, rfl⟩
  rw [readName_eq_ok hname, hseparator]

/-! ### Effects -/

/-- The keyword that declares constants of a kind. -/
def constantKeyword : ConstantKind → Keyword
  | .data => .data
  | .values => .values
  | .string => .string

/-- The keyword that declares a module. -/
def slotKeyword (optional : Bool) : Keyword := if optional then .optionalSlot else .slot

/-- The keywords that only say something about the container. -/
def Keyword.describes : Keyword → Bool
  | title | author | description | version | runtime | resources => true
  | _ => false

/-- What a line does to the session that declares something: `items` are those after its directive,
and `left` those of them that are not read. -/
inductive Effect (session : Session) : Keyword → (items left : List Item) → Session → Prop where
  /-- The bytes of a constant are registered, and a free name refers to them. -/
  | constant (kind : ConstantKind) (name : String) (c : Char) (content left : List Item)
      (index : UInt8) (pool : Pool) (free : session.isTaken name = false)
      (registered : session.pool.register
        (content.flatMap (kind.literalBytes session.type.width)) = .ok (index, pool)) :
      Effect session (constantKeyword kind) (.word name :: .separator c :: (content ++ left)) left
        ({ session with pool }.refer name (.constant index kind))
  /-- A module with a plain and free name takes a free slot. -/
  | slot (slot : Slot) (c : Char) (n : Int64) (left : List Item)
      (index : (slot.index.toNat : Int) = n.toInt) (inRange : slot.index.toNat ≤ Limit.slotIndex)
      (plain : isModuleName slot.name)
      (unclaimed : ∀ other ∈ session.slots, other.index ≠ slot.index)
      (room : session.slots.length < Limit.slots) (free : session.isTaken slot.name = false) :
      Effect session (slotKeyword slot.optional)
        (.word slot.name :: .separator c :: .number n :: left) left
        ({ session with slots := session.slots ++ [slot] }.refer slot.name (.slot slot.index))
  /-- A free name refers to a symbol of another module. -/
  | external (name : String) (c : Char) (n : Int64) (index : UInt8) (left : List Item)
      (value : (index.toNat : Int) = n.toInt) (inRange : index.toNat ≤ Limit.symbolIndex)
      (free : session.isTaken name = false) :
      Effect session .external (.word name :: .separator c :: .number n :: left) left
        (session.refer name (.external index))
  /-- An instruction is added under a free name. -/
  | instruction (name : String) (c : Char) (i : Instruction) (instructionSet : InstructionSet)
      (items left : List Item) (free : session.isTaken name = false)
      (mnemonic : i.name = Text.lowercase name)
      (extended : session.instructionSet.extend i = .ok instructionSet) :
      Effect session .instruction (.word name :: .separator c :: items) left
        { session with instructionSet }
  /-- The container is described. -/
  | described (keyword : Keyword) (metadata : Metadata) (items left : List Item)
      (describes : keyword.describes = true) :
      Effect session keyword items left { session with metadata }

/-- A declaration that is read and carried out has the effect of its keyword. -/
theorem effect_of_read {session session' : Session} {keyword : Keyword} {head : Option Location}
    {declaration : Declaration}
    (h : (keyword.read session head).run args = .ok (declaration, args'))
    (happlied : declaration.apply session = .ok session') :
    Effect session keyword args.values args'.values session' := by
  have hconstant (kind : ConstantKind)
      (h : readConstant session kind args = .ok (declaration, args')) :
      Effect session (constantKeyword kind) args.values args'.values session' := by
    obtain ⟨name, c, content, hvalues, hfree, rfl⟩ := readConstant_eq_ok h
    rw [apply] at happlied
    split at happlied
    · cases happlied
    · next hregistered =>
      cases happlied
      rw [hvalues]
      exact .constant kind name c content _ _ _ hfree hregistered
  have hslot (optional : Bool)
      (h : readSlot session head optional args = .ok (declaration, args')) :
      Effect session (slotKeyword optional) args.values args'.values session' := by
    obtain ⟨slot, c, n, hvalues, hindex, hrange, hplain, hunclaimed, hroom, hfree, rfl, rfl⟩ :=
      readSlot_eq_ok h
    cases happlied
    rw [hvalues]
    exact .slot slot c n _ hindex hrange hplain hunclaimed hroom hfree
  cases keyword with
  | data => exact hconstant .data h
  | string => exact hconstant .string h
  | values => exact hconstant .values h
  | slot => exact hslot false h
  | optionalSlot => exact hslot true h
  | external =>
    obtain ⟨name, c, n, index, hvalues, hindex, hrange, hfree, rfl⟩ := readExternal_eq_ok h
    cases happlied
    rw [hvalues]
    exact .external name c n index _ hindex hrange hfree
  | instruction =>
    obtain ⟨name, c, items, i, hvalues, hfree, hmnemonic, rfl⟩ := readInstruction_eq_ok h
    rw [apply] at happlied
    split at happlied
    · cases happlied
    · next hextended =>
      cases happlied
      rw [hvalues]
      exact .instruction name c i _ _ _ hfree hmnemonic hextended
  | _ =>
    obtain ⟨value, -, rfl⟩ := stateT_map_eq_ok.mp h
    cases happlied
    exact .described _ _ _ _ rfl

end Declaration

end StackAsm
