import ProcCall.Text.Case
import Mathlib.Data.List.Basic

/-!
# Changing case once is enough

No letter that a case mapping leads to is one that it changes, so a text in upper case is its own
upper case, and likewise for lower case. Whether a letter is changed depends on the runs and the
expansions that start from it (`CaseMap.sources`), and what it is changed to on those that lead to
it (`CaseMap.targets`). That the two are apart is seen run by run.

* `CaseRun.not_covers_of_isApart`: runs that are apart.
* `CaseMap.image_eq_self`: the letters that a mapping leaves as they are.
* `CaseMap.image_of_mem_image`: a mapping changes no letter twice.
* `Text.toUpper_toUpper`, `Text.toLower_toLower`: the same for texts.
-/

namespace ProcCall.Text

variable {m : CaseMap} {c d : Char} {n : Nat}

/-! ## Runs -/

namespace CaseRun

variable {r s : CaseRun}

/-- A single code point as a run that leads to itself. -/
def point (n : Nat) : CaseRun := ⟨n, n, 1, n⟩

/-- Whether a code point is one that the run starts from. -/
def Covers (r : CaseRun) (n : Nat) : Prop :=
  r.first ≤ n ∧ n ≤ r.last ∧ (n - r.first) % r.step = 0

/-- Whether a code point is one that the run leads to. -/
def Reaches (r : CaseRun) (n : Nat) : Prop :=
  ∃ k ≤ r.last - r.first, k % r.step = 0 ∧ n = r.target + k

/-- The end of the run that the run leads to. -/
def lastTarget (r : CaseRun) : Nat := r.target + (r.last - r.first)

/-- Whether what `r` leads to lies before or behind `s`, or in the gaps of `s`. -/
def isApart (r s : CaseRun) : Bool :=
  Nat.blt r.lastTarget s.first || Nat.blt s.last r.target ||
    ((r.step == 2 || r.last == r.first) && s.step == 2 && r.target % 2 != s.first % 2)

/-- Whether the run leads to characters. -/
def isValid (r : CaseRun) : Bool :=
  Nat.blt r.lastTarget 0xD800 || (Nat.blt 0xDFFF r.target && Nat.blt r.lastTarget 0x110000)

/-- **Runs that are apart**: no code point that one leads to is one that the other starts from. -/
theorem not_covers_of_isApart (h : r.isApart s = true) (hn : r.Reaches n) : ¬ s.Covers n := by
  obtain ⟨k, hk, hstep, rfl⟩ := hn
  rintro ⟨hfirst, hlast, hgap⟩
  simp only [isApart, lastTarget, Bool.or_eq_true, Bool.and_eq_true, Nat.blt_eq, beq_iff_eq,
    bne_iff_ne] at h
  rcases h with (hbefore | hbehind) | ⟨⟨hr, hs⟩, hparity⟩
  · omega
  · omega
  · -- every second code point on both sides, and one side is odd where the other is even
    have heven : k % 2 = 0 := by
      rcases hr with hr | hr
      · rwa [hr] at hstep
      · omega
    rw [hs] at hgap
    omega

/-- What a valid run leads to are characters. -/
theorem isValidChar_of_isValid (h : r.isValid = true) (hn : r.Reaches n) : n.isValidChar := by
  obtain ⟨k, hk, -, rfl⟩ := hn
  simp only [isValid, lastTarget, Bool.or_eq_true, Bool.and_eq_true, Nat.blt_eq] at h
  unfold Nat.isValidChar
  omega

end CaseRun

/-! ## Mappings -/

namespace CaseMap

open CaseRun

/-- The runs that a mapping starts from, its expansions among them. -/
def sources (m : CaseMap) : List CaseRun := m.runs ++ m.expansions.map fun e => point e.1

/-- The runs that a mapping leads to, its expansions among them. -/
def targets (m : CaseMap) : List CaseRun := m.runs ++ m.expansions.flatMap fun e => e.2.map point

/-- Whether no character that the mapping leads to is one that it changes. -/
def isSettled (m : CaseMap) : Bool :=
  m.targets.all fun r => r.isValid && m.sources.all r.isApart

theorem shift_eq_self {runs : List CaseRun} (h : ∀ r ∈ runs, ¬ r.Covers n) : shift runs n = n := by
  induction runs with
  | nil => rfl
  | cons r rest ih =>
    obtain ⟨hr, hrest⟩ := List.forall_mem_cons.1 h
    rw [shift]
    split
    · rfl
    · next hfirst =>
      rw [if_neg, ih hrest]
      rintro ⟨hlast, hstep⟩
      exact hr ⟨by omega, hlast, hstep⟩

/-- A code point is moved by a run or stays where it is. -/
theorem shift_cases (runs : List CaseRun) (n : Nat) :
    shift runs n = n ∨ ∃ r ∈ runs, r.Reaches (shift runs n) := by
  induction runs with
  | nil => exact .inl rfl
  | cons r rest ih =>
    rw [shift]
    split
    · exact .inl rfl
    · next hfirst =>
      split
      · next hr => exact .inr ⟨r, List.mem_cons_self, n - r.first, by omega, hr.2, rfl⟩
      · rcases ih with h | ⟨s, hs, hn⟩
        · exact .inl h
        · exact .inr ⟨s, List.mem_cons_of_mem _ hs, hn⟩

/-- **The letters that a mapping leaves as they are**: those that no run and no expansion starts
from. -/
theorem image_eq_self (h : ∀ r ∈ m.sources, ¬ r.Covers c.toNat) : m.image c = [c] := by
  obtain ⟨hruns, hkeys⟩ := List.forall_mem_append.1 h
  have hlookup : m.expansions.lookup c.toNat = none := by
    refine List.lookup_eq_none_iff.2 fun e he => bne_iff_ne.2 fun heq => ?_
    exact hkeys _ (List.mem_map_of_mem he) ⟨by simp [point, heq], by simp [point, heq],
      Nat.mod_one _⟩
  rw [image, hlookup]
  simp only
  rw [shift_eq_self hruns, Char.ofNat_toNat]

/-- A letter of an image is one that the mapping leads to, unless the mapping leaves it. -/
theorem mem_image_cases (h : d ∈ m.image c) :
    m.image d = [d] ∨ ∃ r ∈ m.targets, ∃ n, r.Reaches n ∧ d = Char.ofNat n := by
  unfold image at h
  cases hlookup : m.expansions.lookup c.toNat with
  | some codes =>
    rw [hlookup] at h
    obtain ⟨n, hn, rfl⟩ := List.mem_map.1 h
    obtain ⟨before, after, hsplit, -⟩ := List.lookup_eq_some_iff.1 hlookup
    have hentry : (c.toNat, codes) ∈ m.expansions := by rw [hsplit]; simp
    have hpoint : point n ∈ m.targets :=
      List.mem_append_right _ (List.mem_flatMap.2 ⟨_, hentry, List.mem_map_of_mem hn⟩)
    exact .inr ⟨point n, hpoint, n, ⟨0, Nat.zero_le _, rfl, rfl⟩, rfl⟩
  | none =>
    rw [hlookup] at h
    obtain rfl := List.mem_singleton.1 h
    rcases shift_cases m.runs c.toNat with hsame | ⟨r, hr, hn⟩
    · left
      rw [hsame, Char.ofNat_toNat, image, hlookup]
      simp only
      rw [hsame, Char.ofNat_toNat]
    · exact .inr ⟨r, List.mem_append_left _ hr, _, hn, rfl⟩

/-- **A settled mapping changes no letter twice.** -/
theorem image_of_mem_image (hm : m.isSettled = true) (h : d ∈ m.image c) : m.image d = [d] := by
  rcases mem_image_cases h with hsame | ⟨r, hr, n, hn, rfl⟩
  · exact hsame
  · have hchecked := List.all_eq_true.1 hm r hr
    rw [Bool.and_eq_true] at hchecked
    obtain ⟨hvalid, hapart⟩ := hchecked
    have htoNat : (Char.ofNat n).toNat = n := by
      rw [Char.ofNat, dif_pos (isValidChar_of_isValid hvalid hn)]
      rfl
    refine image_eq_self fun s hs => ?_
    rw [htoNat]
    exact not_covers_of_isApart (List.all_eq_true.1 hapart s hs) hn

/-- A text of letters that a mapping leaves as they are. -/
theorem apply_eq_self {t : List Char} (h : ∀ c ∈ t, m.image c = [c]) : m.apply t = t := by
  induction t with
  | nil => rfl
  | cons c t ih =>
    obtain ⟨hc, ht⟩ := List.forall_mem_cons.1 h
    have hrest := ih ht
    unfold apply at hrest ⊢
    rw [List.flatMap_cons, hc, hrest, List.singleton_append]

theorem lower_isSettled : lower.isSettled = true := by decide +kernel

theorem upper_isSettled : upper.isSettled = true := by decide +kernel

theorem lower_image_sigma : lower.image 'Σ' = ['σ'] := by decide +kernel

theorem lower_image_final_sigma : lower.image 'ς' = ['ς'] := by decide +kernel

end CaseMap

/-! ## Texts -/

open CaseMap

/-- **A text in upper case is its own upper case.** -/
theorem toUpper_toUpper (t : Text) : toUpper (toUpper t) = toUpper t := by
  refine apply_eq_self fun d hd => ?_
  obtain ⟨c, -, hc⟩ := List.mem_flatMap.1 hd
  exact image_of_mem_image upper_isSettled hc

/-- Letters of a text in lower case are changed no further. -/
theorem image_of_mem_lowerFrom {before t : Text} (h : d ∈ lowerFrom before t) :
    lower.image d = [d] := by
  induction t generalizing before with
  | nil => cases h
  | cons c rest ih =>
    rw [lowerFrom] at h
    rcases List.mem_append.1 h with h | h
    · split at h
      · -- both small letters for a capital sigma
        split at h
        · rw [List.mem_singleton.1 h, lower_image_final_sigma]
        · rw [← lower_image_sigma] at h
          exact image_of_mem_image lower_isSettled h
      · exact image_of_mem_image lower_isSettled h
    · exact ih h

theorem lowerFrom_eq_self {before t : Text} (h : ∀ c ∈ t, lower.image c = [c]) :
    lowerFrom before t = t := by
  induction t generalizing before with
  | nil => rfl
  | cons c rest ih =>
    obtain ⟨hc, hrest⟩ := List.forall_mem_cons.1 h
    have hsigma : c ≠ 'Σ' := by
      rintro rfl
      rw [lower_image_sigma] at hc
      cases hc
    rw [lowerFrom, if_neg hsigma, hc, ih hrest, List.singleton_append]

/-- **A text in lower case is its own lower case**, whatever stood where a sigma is. -/
theorem toLower_toLower (t : Text) : toLower (toLower t) = toLower t :=
  lowerFrom_eq_self fun _ hd => image_of_mem_lowerFrom hd

end ProcCall.Text
