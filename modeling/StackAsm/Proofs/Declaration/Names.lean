import StackAsm.Proofs.Declaration.Reading
import StackAsm.Proofs.Session

/-!
# What the names of a program refer to

A line that declares a constant, a module or an external symbol gives it a name, and that name is
free before. So a name keeps what it refers to while further lines are read, and after the last
line the names are those that the lines declare, each referring to what its line says. For a
constant that is an index of the pool at which exactly the bytes of its literals stand.
-/

namespace StackAsm.Declaration

/-- A line that consists of the items gives the name its reference, where the pool holds the
constants of the program at the width. -/
inductive Names (w : Width) (pool : Pool) (name : String) : List Item → Reference → Prop where
  /-- A constant: the pool holds the bytes of its literals. -/
  | constant (directive : String) (kind : ConstantKind) (c : Char) (content : List Item)
      (index : UInt8) (keyword : Keyword.ofName? directive = some (constantKeyword kind))
      (held : pool.get? index = some (content.flatMap (kind.literalBytes w))) :
      Names w pool name (.directive directive :: .word name :: .separator c :: content)
        (.constant index kind)
  /-- A module and its slot. -/
  | slot (directive : String) (optional : Bool) (c : Char) (n : Int64) (index : UInt8)
      (keyword : Keyword.ofName? directive = some (slotKeyword optional))
      (value : (index.toNat : Int) = n.toInt) :
      Names w pool name [.directive directive, .word name, .separator c, .number n] (.slot index)
  /-- A symbol of another module and its index. -/
  | external (directive : String) (c : Char) (n : Int64) (index : UInt8)
      (keyword : Keyword.ofName? directive = some .external)
      (value : (index.toNat : Int) = n.toInt) :
      Names w pool name [.directive directive, .word name, .separator c, .number n]
        (.external index)

variable {w : Width} {pool pool' : Pool} {name : String} {items : List Item} {r : Reference}

/-- Only some directives give names. -/
theorem Names.exists_keyword (h : Names w pool name items r) :
    ∃ directive rest keyword, items = .directive directive :: rest ∧
      Keyword.ofName? directive = some keyword ∧ keyword ≠ .instruction ∧
      keyword.describes = false := by
  cases h with
  | constant directive kind c content index hkeyword =>
    exact ⟨directive, _, _, rfl, hkeyword, by cases kind <;> simp [constantKeyword],
      by cases kind <;> rfl⟩
  | slot directive optional c n index hkeyword =>
    exact ⟨directive, _, _, rfl, hkeyword, by cases optional <;> simp [slotKeyword],
      by cases optional <;> rfl⟩
  | external directive c n index hkeyword =>
    exact ⟨directive, _, _, rfl, hkeyword, by simp, rfl⟩

/-- What a line names stays while the pool grows. -/
theorem Names.of_grows (h : Names w pool name items r) (hpool : pool.Grows pool') :
    Names w pool' name items r := by
  cases h with
  | constant directive kind c content index hkeyword held =>
    exact .constant directive kind c content index hkeyword (hpool.get? held)
  | slot directive optional c n index hkeyword hvalue =>
    exact .slot directive optional c n index hkeyword hvalue
  | external directive c n index hkeyword hvalue =>
    exact .external directive c n index hkeyword hvalue

theorem eq_of_toNat_eq {i j : UInt8} {n : Int64} (hi : (i.toNat : Int) = n.toInt)
    (hj : (j.toNat : Int) = n.toInt) : i = j := UInt8.toNat_inj.mp (by omega)

/-- A line gives one name one reference. -/
theorem Names.unique {name' : String} {r' : Reference} (hpool : pool.WellFormed)
    (h : Names w pool name items r) (h' : Names w pool name' items r') : name' = name ∧ r' = r := by
  cases h with
  | constant directive kind c content index hkeyword held =>
    cases h' with
    | constant _ kind' _ _ index' hkeyword' held' =>
      obtain rfl : kind' = kind := by
        rw [hkeyword] at hkeyword'
        cases kind <;> cases kind' <;> simp_all [constantKeyword]
      exact ⟨rfl, by rw [hpool.get?_inj held' held]⟩
    | slot _ optional _ _ _ hkeyword' =>
      rw [hkeyword] at hkeyword'
      cases kind <;> cases optional <;> cases hkeyword'
    | external _ _ _ _ hkeyword' =>
      rw [hkeyword] at hkeyword'
      cases kind <;> cases hkeyword'
  | slot directive optional c n index hkeyword hvalue =>
    cases h' with
    | constant _ kind _ _ _ hkeyword' =>
      rw [hkeyword] at hkeyword'
      cases kind <;> cases optional <;> cases hkeyword'
    | slot _ _ _ _ index' _ hvalue' => exact ⟨rfl, by rw [eq_of_toNat_eq hvalue' hvalue]⟩
    | external _ _ _ _ hkeyword' =>
      rw [hkeyword] at hkeyword'
      cases optional <;> cases hkeyword'
  | external directive c n index hkeyword hvalue =>
    cases h' with
    | constant _ kind _ _ _ hkeyword' =>
      rw [hkeyword] at hkeyword'
      cases kind <;> cases hkeyword'
    | slot _ optional _ _ _ hkeyword' =>
      rw [hkeyword] at hkeyword'
      cases optional <;> cases hkeyword'
    | external _ _ _ index' _ hvalue' => exact ⟨rfl, by rw [eq_of_toNat_eq hvalue' hvalue]⟩

/-! ### Lines -/

variable {session session' : Session} {line put : List (Located Item)}
  {lines : List (List (Located Item))}

theorem Stores.grows {items stored : List (Located Item)} (h : Stores pool items pool' stored) :
    pool.Grows pool' := by
  induction h with
  | nil => exact .refl _
  | text _ registered _ ih => exact (Pool.grows_register registered).trans ih
  | other _ _ ih => exact ih

section

variable {keyword : Keyword} {left : List Item}

theorem Effect.type_eq (h : Effect session keyword items left session') :
    session'.type = session.type := by
  cases h <;> rfl

theorem Effect.grows (h : Effect session keyword items left session') :
    session.pool.Grows session'.pool := by
  cases h with
  | constant _ _ _ _ _ _ _ _ registered => exact Pool.grows_register registered
  | _ => exact .refl _

/-- A declaration that is read to its end gives a free name to something, or is one of those that
give no name. -/
theorem Effect.names {directive : String} (h : Effect session keyword items left session')
    (hpool : session.pool.WellFormed) (hleft : left = [])
    (hknown : Keyword.ofName? directive = some keyword) :
    (session'.references = session.references ∧
        (keyword = .instruction ∨ keyword.describes = true)) ∨
      ∃ name r, session.isTaken name = false ∧
        session'.references = session.references.insert name r ∧
        Names session.type.width session'.pool name (.directive directive :: items) r := by
  subst hleft
  cases h with
  | constant kind name c content _ index pool free registered =>
    rw [List.append_nil]
    exact .inr ⟨name, _, free, rfl,
      .constant directive kind c content index hknown (hpool.get?_register registered)⟩
  | slot slot c n _ index inRange plain unclaimed room free =>
    exact .inr ⟨slot.name, _, free, rfl, .slot directive slot.optional c n slot.index hknown index⟩
  | external name c n index _ value inRange free =>
    exact .inr ⟨name, _, free, rfl, .external directive c n index hknown value⟩
  | instruction => exact .inl ⟨rfl, .inl rfl⟩
  | described _ _ _ _ describes => exact .inl ⟨rfl, .inr describes⟩

end

theorem LineRead.type_eq (h : LineRead session line session' put) :
    session'.type = session.type := by
  cases h with
  | declared _ _ effect => exact effect.type_eq
  | deferred => rfl

theorem LineRead.grows (h : LineRead session line session' put) :
    session.pool.Grows session'.pool := by
  cases h with
  | declared _ _ effect => exact effect.grows
  | deferred _ _ stores => exact stores.grows

/-- A line gives a free name to something, or no name can be read off it. -/
theorem LineRead.names (h : LineRead session line session' put) (hpool : session.pool.WellFormed) :
    (session'.references = session.references ∧
        ∀ w pool name r, ¬Names w pool name (line.map (·.value)) r) ∨
      ∃ name r, session.isTaken name = false ∧
        session'.references = session.references.insert name r ∧
        Names session.type.width session'.pool name (line.map (·.value)) r := by
  cases h with
  | @declared _ head rest directive keyword value known effect =>
    rw [List.map_cons, value]
    rcases effect.names hpool rfl known with ⟨hsame, hnot⟩ | hnamed
    · refine .inl ⟨hsame, ?_⟩
      intro w pool name r hnames
      obtain ⟨_, _, keyword', hitems, hknown, hne, hdescribes⟩ := hnames.exists_keyword
      cases hitems
      cases known.symm.trans hknown
      rcases hnot with rfl | htrue
      · exact hne rfl
      · rw [hdescribes] at htrue
        cases htrue
    · exact .inr hnamed
  | @deferred head rest _ _ _ plain stores =>
    refine .inl ⟨rfl, ?_⟩
    intro w pool name r hnames
    obtain ⟨directive, rest', keyword, hitems, hknown, -⟩ := hnames.exists_keyword
    have hnone := plain directive (List.cons.inj hitems).1
    rw [hknown] at hnone
    cases hnone

theorem Reading.type_eq (h : Reading session lines session' put) :
    session'.type = session.type := by
  induction h with
  | nil => rfl
  | cons read _ ih => exact ih.trans read.type_eq

theorem Reading.grows (h : Reading session lines session' put) :
    session.pool.Grows session'.pool := by
  induction h with
  | nil => exact .refl _
  | cons read _ ih => exact read.grows.trans ih

/-- **The names of a program are those that its lines declare**: after lines were read, a name
refers to what it did before or to what a line says, and to nothing else. -/
theorem Reading.get?_eq_some_iff (h : Reading session lines session' put)
    (hpool : session.pool.WellFormed) (name : String) (r : Reference) :
    session'.references.get? name = some r ↔
      session.references.get? name = some r ∨
        ∃ line ∈ lines, Names session.type.width session'.pool name (line.map (·.value)) r := by
  induction h with
  | nil => simp
  | @cons session session₁ session' line lines first rest read reading ih =>
    have hpool₁ := read.grows.wellFormed hpool
    rw [ih hpool₁, read.type_eq, List.exists_mem_cons_iff]
    rcases read.names hpool with ⟨hsame, hno⟩ | ⟨name₁, r₁, hfree, hinsert, hnames⟩
    · -- the first line gives no name
      rw [hsame]
      constructor
      · rintro (hold | hlater)
        · exact .inl hold
        · exact .inr (.inr hlater)
      · rintro (hold | hfirst | hlater)
        · exact .inl hold
        · exact absurd hfirst (hno _ _ _ _)
        · exact .inr hlater
    · -- the first line gives a name, which no line and nothing before gives
      have hnames' := hnames.of_grows reading.grows
      have hget : session₁.references.get? name =
          if name = name₁ then some r₁ else session.references.get? name := by
        rw [hinsert, Table.get?_insert]
      constructor
      · rintro (hold | hlater)
        · by_cases hname : name = name₁
          · subst hname
            rw [hget, if_pos rfl] at hold
            cases hold
            exact .inr (.inl hnames')
          · rw [hget, if_neg hname] at hold
            exact .inl hold
        · exact .inr (.inr hlater)
      · rintro (hold | hfirst | hlater)
        · refine .inl ?_
          rw [hget, if_neg (Session.ne_of_free hfree hold), hold]
        · obtain ⟨rfl, rfl⟩ := hnames'.unique (reading.grows.wellFormed hpool₁) hfirst
          exact .inl (by rw [hget, if_pos rfl])
        · exact .inr hlater

end StackAsm.Declaration
