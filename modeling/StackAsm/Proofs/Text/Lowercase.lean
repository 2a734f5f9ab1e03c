import StackAsm.Proofs.Text

/-!
# Lower case for good

There is no capital letter left in a text that was put in lower case, so putting it in lower case
again changes nothing. Which letters are capitals is a matter of runs of code points (`capitals`).
No small letter lies in one of them; that is checked run against run, since every run is lowered by
one distance.
-/

namespace StackAsm.Text

/-- The runs of capital letters: those of ASCII, the capital I with a dot, and all others. -/
def capitals : List CaseRun := ⟨65, 90, 1, 32⟩ :: ⟨0x130, 0x130, 1, 0⟩ :: caseRuns

/-- Whether the code point is that of no capital letter. -/
def isSmall (n : Nat) : Bool := capitals.all (!·.holds n)

/-! ### Runs -/

namespace CaseRun

/-- The code point that a code point of the run is lowered to. -/
def lowered (run : CaseRun) (n : Nat) : Nat := ((n : Int) + run.distance).toNat

/-- Whether the run `other` holds no code point from `low` to `high`, of which only those with the
parity of `low` count if `spaced` is true. -/
def misses (low high : Nat) (spaced : Bool) (other : CaseRun) : Bool :=
  high.blt other.first || other.last.blt low ||
    spaced && other.step.beq 2 && !(low % 2).beq (other.first % 2)

/-- Whether the run is lowered to code points of characters, none of which is a capital letter. -/
def isLowered (run : CaseRun) : Bool :=
  let low := run.lowered run.first
  let high := run.lowered run.last
  decide (0 ≤ run.first + run.distance) &&
    (high.blt 0xD800 || Nat.blt 0xDFFF low && high.blt 0x110000) &&
    capitals.all (misses low high (run.first.beq run.last || run.step.beq 2))

theorem holds_iff (run : CaseRun) (n : Nat) :
    run.holds n = true ↔ run.first ≤ n ∧ n ≤ run.last ∧ (n - run.first) % run.step = 0 := by
  simp [holds, and_assoc]

theorem not_holds_of_lt {run : CaseRun} {n : Nat} (h : n < run.first) : run.holds n = false := by
  by_contra hholds
  obtain ⟨hfirst, -⟩ := (holds_iff run n).mp (by simpa using hholds)
  omega

theorem not_holds_of_misses {low high n : Nat} {spaced : Bool} {other : CaseRun}
    (h : misses low high spaced other = true) (hlow : low ≤ n) (hhigh : n ≤ high)
    (hspaced : spaced = true → n % 2 = low % 2) : other.holds n = false := by
  by_contra hholds
  obtain ⟨hfirst, hlast, hstep⟩ := (holds_iff other n).mp (by simpa using hholds)
  simp only [misses, Bool.or_eq_true, Bool.and_eq_true, Nat.blt_eq, Nat.beq_eq, Bool.not_eq_true',
    ← Bool.not_eq_true] at h
  rcases h with (habove | hbelow) | ⟨⟨hone, htwo⟩, hparity⟩
  · omega
  · omega
  · have hsame := hspaced hone
    rw [htwo] at hstep
    omega

theorem isLowered_of_mem {run : CaseRun} (h : run ∈ caseRuns) : run.isLowered = true := by
  have hall : caseRuns.all isLowered = true := by decide +kernel
  exact List.all_eq_true.mp hall run h

/-- A capital letter of a run is lowered to a character that is none. -/
theorem lowered_of_mem {run : CaseRun} (h : run ∈ caseRuns) {n : Nat} (hn : run.holds n = true) :
    (run.lowered n).isValidChar ∧ isSmall (run.lowered n) = true := by
  have hlowered := isLowered_of_mem h
  simp only [isLowered, Bool.and_eq_true, Bool.or_eq_true, Nat.blt_eq, decide_eq_true_eq,
    List.all_eq_true] at hlowered
  obtain ⟨⟨hpos, hvalid⟩, hmisses⟩ := hlowered
  obtain ⟨hfirst, hlast, hstep⟩ := (holds_iff run n).mp hn
  have hlow : run.lowered run.first ≤ run.lowered n := by
    unfold lowered
    omega
  have hhigh : run.lowered n ≤ run.lowered run.last := by
    unfold lowered
    omega
  -- the run is a single letter or takes every second code point
  have hspaced : (run.first.beq run.last || run.step.beq 2) = true →
      run.lowered n % 2 = run.lowered run.first % 2 := by
    intro hspaced
    unfold lowered
    simp only [Bool.or_eq_true, Nat.beq_eq] at hspaced
    rcases hspaced with hsingle | htwo
    · omega
    · rw [htwo] at hstep
      omega
  constructor
  · unfold Nat.isValidChar
    omega
  · refine List.all_eq_true.mpr fun other hother => ?_
    simp [not_holds_of_misses (hmisses other hother) hlow hhigh hspaced]

end CaseRun

/-! ### Characters -/

theorem toNat_ofNat {n : Nat} (h : n.isValidChar) : (Char.ofNat n).toNat = n := by
  unfold Char.ofNat
  rw [dif_pos h]
  rfl

theorem ne_sigma_of_isSmall {n : Nat} (h : isSmall n = true) : n ≠ 0x3A3 := by
  rintro rfl
  exact absurd h (by decide +kernel)

theorem isSmall_iff {n : Nat} :
    isSmall n = true ↔
      ¬(65 ≤ n ∧ n ≤ 90) ∧ n ≠ 0x130 ∧ ∀ run ∈ caseRuns, run.holds n = false := by
  have hascii : CaseRun.holds ⟨65, 90, 1, 32⟩ n = false ↔ ¬(65 ≤ n ∧ n ≤ 90) := by
    rw [← Bool.not_eq_true, CaseRun.holds_iff]
    simp only [Nat.mod_one, and_true]
  have hdotted : CaseRun.holds ⟨0x130, 0x130, 1, 0⟩ n = false ↔ n ≠ 0x130 := by
    rw [← Bool.not_eq_true, CaseRun.holds_iff]
    simp only [Nat.mod_one, and_true]
    omega
  simp only [isSmall, capitals, List.all_eq_true, List.forall_mem_cons, Bool.not_eq_true', hascii,
    hdotted]

/-- A character that is no capital letter is in lower case. -/
theorem lowerChar_of_isSmall {c : Char} (h : isSmall c.toNat = true) : lowerChar c = [c] := by
  obtain ⟨hascii, hdotted, hruns⟩ := isSmall_iff.mp h
  unfold lowerChar
  split
  · have hsame : c.toLower = c := Char.toNat_inj.mp (by rw [toNat_toLower, if_neg hascii])
    rw [hsame]
  · rw [List.find?_eq_none.mpr fun run hrun => by simp [hruns run hrun]]

theorem isSmall_lowerChar {c d : Char} (h : d ∈ lowerChar c) : isSmall d.toNat = true := by
  unfold lowerChar at h
  split at h
  · next hc =>
    obtain rfl := List.mem_singleton.mp h
    have hlt := toNat_toLower_lt hc
    have hlower := toNat_toLower c
    refine isSmall_iff.mpr ⟨?_, by omega, fun run hrun => CaseRun.not_holds_of_lt ?_⟩
    · split at hlower <;> omega
    · -- all other runs lie beyond ASCII
      have hbeyond : caseRuns.all (0x80 ≤ ·.first) = true := by decide
      have hfirst := of_decide_eq_true (List.all_eq_true.mp hbeyond run hrun)
      omega
  · next hc =>
    split at h
    · simp only [List.mem_cons, List.not_mem_nil, or_false] at h
      rcases h with rfl | rfl
      · decide +kernel
      · decide +kernel
    · next hdotted =>
      split at h
      · next run hrun =>
        obtain rfl := List.mem_singleton.mp h
        have hholds : run.holds c.toNat = true := by simpa using List.find?_some hrun
        obtain ⟨hvalid, hsmall⟩ :=
          CaseRun.lowered_of_mem (List.mem_of_find?_eq_some hrun) hholds
        rw [← CaseRun.lowered, toNat_ofNat hvalid]
        exact hsmall
      · next hnone =>
        obtain rfl := List.mem_singleton.mp h
        refine isSmall_iff.mpr ⟨by omega, hdotted, fun run hrun => ?_⟩
        simpa using List.find?_eq_none.mp hnone run hrun

/-! ### Texts -/

/-- No capital letter is left. -/
theorem isSmall_lowerInto (before done cs : List Char)
    (hdone : ∀ d ∈ done, isSmall d.toNat = true) :
    ∀ d ∈ lowerInto before done cs, isSmall d.toNat = true := by
  induction cs generalizing before done with
  | nil => simpa [lowerInto] using hdone
  | cons c cs ih =>
    rw [lowerInto]
    refine ih _ _ fun d hd => ?_
    rcases List.mem_append.mp hd with hnew | hold
    · rw [List.mem_reverse] at hnew
      split at hnew
      · -- both forms of a sigma are small
        split at hnew
        · rw [List.mem_singleton.mp hnew]
          decide +kernel
        · rw [List.mem_singleton.mp hnew]
          decide +kernel
      · exact isSmall_lowerChar hnew
    · exact hdone d hold

theorem lowerInto_of_isSmall (before done : List Char) {cs : List Char}
    (h : ∀ c ∈ cs, isSmall c.toNat = true) : lowerInto before done cs = done.reverse ++ cs := by
  induction cs generalizing before done with
  | nil => simp [lowerInto]
  | cons c cs ih =>
    obtain ⟨hc, hcs⟩ := List.forall_mem_cons.mp h
    rw [lowerInto, if_neg (ne_sigma_of_isSmall hc), lowerChar_of_isSmall hc, ih _ _ hcs]
    simp

/-- **A text in lower case is in lower case for good.** -/
theorem lowercase_lowercase (s : String) : lowercase (lowercase s) = lowercase s := by
  have hsmall := isSmall_lowerInto [] [] s.toList (by simp)
  rw [lowercase, lowercase, String.toList_ofList, lowerInto_of_isSmall [] [] hsmall]
  rfl

end StackAsm.Text
