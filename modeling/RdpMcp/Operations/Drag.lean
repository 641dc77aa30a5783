import Mathlib.Data.Bool.AllAny
import Mathlib.Tactic.Linarith
import RdpMcp.Operations.Serial

/-!
# The way of a drag

A drag moves the pointer to its end in ten steps, each computed in 32-bit integers that wrap around
in a release build: the difference of the ends, its multiple, and the sum. **Where ten times the
difference fits in 32 bits**, nothing wraps and the ten positions lie on the way, one behind the
other, the last at the end. Where it does not fit, the last position is somewhere else, or the
difference itself has wrapped to a small number of the other sign and the way leads round the other
side. Only from one end of the integers to the other does that go unnoticed (`approaches_iff`).
-/

namespace RdpMcp

/-! ### The positions -/

/-- One coordinate of a drag after a step. -/
def dragPoint (start finish step : Int32) : Int32 :=
  start + (finish - start) * step / 10

/-- The steps of a drag. -/
def dragSteps : List Int32 :=
  [1, 2, 3, 4, 5, 6, 7, 8, 9, 10]

/-- The positions of a drag between its ends. -/
def dragPositions (fromX fromY toX toY : Int32) : List (Int32 × Int32) :=
  dragSteps.map fun step ↦ (dragPoint fromX toX step, dragPoint fromY toY step)

/-- **The commands of a drag**: to its start, the button down, the ten positions, and the button up
at its end. -/
theorem trace_mouseDrag (fromX fromY toX toY : Int32) (button : ℕ) :
    Program.trace (mouseDrag fromX fromY toX toY button).run =
      moveCommand fromX fromY :: buttonCommand "mouse_button_down" fromX fromY button ::
        (dragPositions fromX fromY toX toY).map (fun position ↦
          moveCommand position.1 position.2) ++
        [buttonCommand "mouse_button_up" toX toY button] :=
  rfl

/-- A coordinate approaches the end: never going back, never leaving the way, and arriving. -/
structure Approaches (start finish : Int32) (points : List Int32) : Prop where
  forward : start ≤ finish → (start :: points).Pairwise (· ≤ ·)
  backward : finish ≤ start → (start :: points).Pairwise (· ≥ ·)
  between : ∀ point ∈ points, min start.toInt finish.toInt ≤ point.toInt ∧
    point.toInt ≤ max start.toInt finish.toInt
  arrives : points.getLast? = some finish

/-- Ten times the difference fits in 32 bits, or the way is from one end of the integers to the
other. -/
def DragFits (start finish : Int32) : Prop :=
  (-2 ^ 31 ≤ 10 * (finish.toInt - start.toInt) ∧ 10 * (finish.toInt - start.toInt) < 2 ^ 31) ∨
    (start = Int32.minValue ∧ finish = Int32.maxValue) ∨
    (start = Int32.maxValue ∧ finish = Int32.minValue)

/-! ### Arithmetic that wraps -/

/-- A number that wraps around changes by a multiple of the word. -/
theorem exists_bmod_eq (n : ℤ) : ∃ m : ℤ, n.bmod (2 ^ 32) = n + 4294967296 * m := by
  refine ⟨-n.bdiv (2 ^ 32), ?_⟩
  rw [Int.bmod_eq_self_sub_mul_bdiv]
  omega

theorem toInt_dragPoint (start finish step : Int32) :
    (dragPoint start finish step).toInt =
      (start.toInt + (((finish.toInt - start.toInt).bmod (2 ^ 32) * step.toInt).bmod
        (2 ^ 32)).tdiv 10).bmod (2 ^ 32) := by
  rw [dragPoint, Int32.toInt_add, Int32.toInt_div_of_ne_right _ _ (by decide), Int32.toInt_mul,
    Int32.toInt_sub]
  rfl

/-- A tenth, towards zero. -/
theorem tdiv_ten_bounds (n : ℤ) :
    (0 ≤ n → 10 * n.tdiv 10 ≤ n ∧ n < 10 * n.tdiv 10 + 10) ∧
      (n ≤ 0 → n ≤ 10 * n.tdiv 10 ∧ 10 * n.tdiv 10 < n + 10) := by
  constructor
  · intro h
    rw [Int.tdiv_eq_ediv_of_nonneg h]
    omega
  · intro h
    have hneg := Int.neg_tdiv (-n) 10
    rw [neg_neg, Int.tdiv_eq_ediv_of_nonneg (show 0 ≤ -n by omega)] at hneg
    omega

/-- A multiple by at most ten lies between zero and ten times. -/
theorem mul_step_bounds {n k : ℤ} (hk : 0 ≤ k ∧ k ≤ 10) :
    (0 ≤ n → 0 ≤ n * k ∧ n * k ≤ 10 * n) ∧ (n ≤ 0 → 10 * n ≤ n * k ∧ n * k ≤ 0) := by
  obtain ⟨hk, hk'⟩ := hk
  refine ⟨fun hn ↦ ⟨mul_nonneg hn hk, by nlinarith⟩, fun hn ↦ ⟨by nlinarith, ?_⟩⟩
  exact mul_nonpos_of_nonpos_of_nonneg hn hk

/-! ### Where nothing wraps -/

section Fits

variable {start finish step step' : Int32}

theorem steps_bounds : ∀ step ∈ dragSteps, 0 ≤ step.toInt ∧ step.toInt ≤ 10 :=
  List.all_iff_forall_prop.1 (by decide)

theorem getLast?_dragPoints (start finish : Int32) :
    (dragSteps.map (dragPoint start finish)).getLast? = some (dragPoint start finish 10) :=
  rfl

/-- Where ten times the difference fits, a step goes its share of the way. -/
theorem toInt_dragPoint_of_fits (hlo : -2 ^ 31 ≤ 10 * (finish.toInt - start.toInt))
    (hhi : 10 * (finish.toInt - start.toInt) < 2 ^ 31) (hstep : 0 ≤ step.toInt ∧ step.toInt ≤ 10) :
    (dragPoint start finish step).toInt =
      start.toInt + ((finish.toInt - start.toInt) * step.toInt).tdiv 10 := by
  have hstart := start.le_toInt
  have hstart' := start.toInt_lt
  have hfinish := finish.le_toInt
  have hfinish' := finish.toInt_lt
  rw [toInt_dragPoint]
  generalize hd : finish.toInt - start.toInt = d at *
  obtain ⟨hpos, hneg⟩ := mul_step_bounds (n := d) hstep
  rw [Int.bmod_eq_of_le (n := d) (by omega) (by omega),
    Int.bmod_eq_of_le (n := d * step.toInt) (by omega) (by omega)]
  obtain ⟨htpos, htneg⟩ := tdiv_ten_bounds (d * step.toInt)
  exact Int.bmod_eq_of_le (by omega) (by omega)

/-- **Where ten times the difference fits, the way is a way.** -/
theorem approaches_of_fits (hlo : -2 ^ 31 ≤ 10 * (finish.toInt - start.toInt))
    (hhi : 10 * (finish.toInt - start.toInt) < 2 ^ 31) :
    Approaches start finish (dragSteps.map (dragPoint start finish)) := by
  have hpoint {step : Int32} (hmem : step ∈ dragSteps) :=
    toInt_dragPoint_of_fits hlo hhi (steps_bounds step hmem)
  have hordered : dragSteps.Pairwise fun step step' ↦ step.toInt ≤ step'.toInt := by decide
  -- the share of a step, and that of a later one
  have hshare {step : Int32} (hmem : step ∈ dragSteps) :=
    (mul_step_bounds (n := finish.toInt - start.toInt) (steps_bounds step hmem))
  have htenth (step : Int32) := tdiv_ten_bounds ((finish.toInt - start.toInt) * step.toInt)
  refine ⟨fun hle ↦ ?_, fun hle ↦ ?_, ?_, ?_⟩
  · rw [Int32.le_iff_toInt_le] at hle
    refine List.pairwise_cons.2 ⟨?_, List.pairwise_map.2 (hordered.imp_of_mem ?_)⟩
    · rintro point hpoint'
      obtain ⟨step, hmem, rfl⟩ := List.mem_map.1 hpoint'
      rw [Int32.le_iff_toInt_le, hpoint hmem]
      have := hshare hmem
      have := htenth step
      omega
    · intro step step' hmem hmem' hsteps
      rw [Int32.le_iff_toInt_le, hpoint hmem, hpoint hmem']
      have hmul : (finish.toInt - start.toInt) * step.toInt ≤
          (finish.toInt - start.toInt) * step'.toInt :=
        mul_le_mul_of_nonneg_left hsteps (by omega)
      have := hshare hmem
      have := htenth step
      have := htenth step'
      omega
  · rw [Int32.le_iff_toInt_le] at hle
    refine List.pairwise_cons.2 ⟨?_, List.pairwise_map.2 (hordered.imp_of_mem ?_)⟩
    · rintro point hpoint'
      obtain ⟨step, hmem, rfl⟩ := List.mem_map.1 hpoint'
      rw [ge_iff_le, Int32.le_iff_toInt_le, hpoint hmem]
      have := hshare hmem
      have := htenth step
      omega
    · intro step step' hmem hmem' hsteps
      rw [ge_iff_le, Int32.le_iff_toInt_le, hpoint hmem, hpoint hmem']
      have hmul : (finish.toInt - start.toInt) * step'.toInt ≤
          (finish.toInt - start.toInt) * step.toInt :=
        mul_le_mul_of_nonpos_left hsteps (by omega)
      have := hshare hmem'
      have := htenth step
      have := htenth step'
      omega
  · rintro point hpoint'
    obtain ⟨step, hmem, rfl⟩ := List.mem_map.1 hpoint'
    rw [hpoint hmem]
    have := hshare hmem
    have := htenth step
    omega
  · rw [getLast?_dragPoints]
    refine congrArg some (Int32.toInt.inj ?_)
    rw [toInt_dragPoint_of_fits hlo hhi (by decide),
      show (10 : Int32).toInt = 10 from rfl, Int.mul_tdiv_cancel _ (by decide)]
    omega

/-- From one end of the integers to the other, the pointer waits and then jumps. -/
theorem approaches_of_ends :
    Approaches Int32.minValue Int32.maxValue
        (dragSteps.map (dragPoint Int32.minValue Int32.maxValue)) ∧
      Approaches Int32.maxValue Int32.minValue
        (dragSteps.map (dragPoint Int32.maxValue Int32.minValue)) :=
  ⟨⟨fun _ ↦ by decide, nofun, List.all_iff_forall_prop.1 (by decide), rfl⟩,
    ⟨nofun, fun _ ↦ by decide, List.all_iff_forall_prop.1 (by decide), rfl⟩⟩

end Fits

/-! ### Where it wraps -/

/-- **A way that arrives and is never left fits.** The difference that the code computes is the
tenth step; where it is not the true one, the ninth step has left the way already, unless the
difference is one. -/
theorem fits_of_approaches {start finish : Int32}
    (h : Approaches start finish (dragSteps.map (dragPoint start finish))) :
    DragFits start finish := by
  have hlast : (dragPoint start finish 10).toInt = finish.toInt := by
    have := h.arrives
    rw [getLast?_dragPoints] at this
    rw [Option.some.inj this]
  have hninth := h.between (dragPoint start finish 9) (by simp [dragSteps])
  have hstart := start.le_toInt
  have hstart' := start.toInt_lt
  have hfinish := finish.le_toInt
  have hfinish' := finish.toInt_lt
  have hnine := (dragPoint start finish 9).le_toInt
  have hnine' := (dragPoint start finish 9).toInt_lt
  generalize hp : (dragPoint start finish 9).toInt = p at hninth hnine hnine'
  rw [toInt_dragPoint, show (10 : Int32).toInt = 10 from rfl] at hlast
  rw [toInt_dragPoint, show (9 : Int32).toInt = 9 from rfl] at hp
  -- a number that has wrapped, and the range it has wrapped to
  have hrange (n : ℤ) : -2147483648 ≤ n.bmod (2 ^ 32) ∧ n.bmod (2 ^ 32) < 2147483648 :=
    ⟨Int.le_bmod (by decide), Int.bmod_lt (by decide)⟩
  have hdiff := hrange (finish.toInt - start.toInt)
  obtain ⟨m₁, hm₁⟩ := exists_bmod_eq (finish.toInt - start.toInt)
  generalize (finish.toInt - start.toInt).bmod (2 ^ 32) = d at *
  have hten := hrange (d * 10)
  obtain ⟨m₂, hm₂⟩ := exists_bmod_eq (d * 10)
  generalize (d * 10).bmod (2 ^ 32) = r at *
  have htenth := tdiv_ten_bounds r
  generalize r.tdiv 10 = t at *
  obtain ⟨m₃, hm₃⟩ := exists_bmod_eq (start.toInt + t)
  rw [hlast] at hm₃
  have hd : d = t := by omega
  have hfits : -2147483648 ≤ 10 * d ∧ 10 * d < 2147483648 := by omega
  rw [Int.bmod_eq_of_le (n := d * 9) (by omega) (by omega)] at hp
  have hninth' := tdiv_ten_bounds (d * 9)
  generalize (d * 9).tdiv 10 = u at *
  obtain ⟨m₄, hm₄⟩ := exists_bmod_eq (start.toInt + u)
  rw [hp] at hm₄
  have hends : (-2 ^ 31 ≤ 10 * (finish.toInt - start.toInt) ∧
      10 * (finish.toInt - start.toInt) < 2 ^ 31) ∨
      (start.toInt = -2147483648 ∧ finish.toInt = 2147483647) ∨
      (start.toInt = 2147483647 ∧ finish.toInt = -2147483648) := by
    rcases (by omega : m₃ = 0 ∨ m₃ = 1 ∨ m₃ = -1) with rfl | rfl | rfl
    · left
      omega
    · -- round the upper end: the difference has become negative
      have hone : d = -1 := by
        by_contra hne
        rcases (by omega : m₄ = 0 ∨ m₄ = 1) with rfl | rfl <;> omega
      omega
    · have hone : d = 1 := by
        by_contra hne
        rcases (by omega : m₄ = 0 ∨ m₄ = -1) with rfl | rfl <;> omega
      omega
  exact hends.imp_right (.imp (fun ⟨hs, hf⟩ ↦ ⟨Int32.toInt.inj hs, Int32.toInt.inj hf⟩)
    fun ⟨hs, hf⟩ ↦ ⟨Int32.toInt.inj hs, Int32.toInt.inj hf⟩)

/-- **A coordinate approaches its end exactly if it fits.** -/
theorem approaches_iff (start finish : Int32) :
    Approaches start finish (dragSteps.map (dragPoint start finish)) ↔ DragFits start finish := by
  refine ⟨fits_of_approaches, ?_⟩
  rintro (⟨hlo, hhi⟩ | ⟨rfl, rfl⟩ | ⟨rfl, rfl⟩)
  · exact approaches_of_fits hlo hhi
  · exact approaches_of_ends.1
  · exact approaches_of_ends.2

/-- **The drag stays on the segment exactly if both its coordinates fit**: the ten positions that
are sent between the button going down at the start and coming up at the end. -/
theorem drag_on_segment_iff (fromX fromY toX toY : Int32) (button : ℕ) :
    Program.trace (mouseDrag fromX fromY toX toY button).run =
      moveCommand fromX fromY :: buttonCommand "mouse_button_down" fromX fromY button ::
        (dragPositions fromX fromY toX toY).map (fun position ↦
          moveCommand position.1 position.2) ++
        [buttonCommand "mouse_button_up" toX toY button] ∧
    (Approaches fromX toX ((dragPositions fromX fromY toX toY).map Prod.fst) ∧
        Approaches fromY toY ((dragPositions fromX fromY toX toY).map Prod.snd) ↔
      DragFits fromX toX ∧ DragFits fromY toY) := by
  refine ⟨trace_mouseDrag fromX fromY toX toY button, ?_⟩
  have hfst : (dragPositions fromX fromY toX toY).map Prod.fst =
      dragSteps.map (dragPoint fromX toX) := List.map_map
  have hsnd : (dragPositions fromX fromY toX toY).map Prod.snd =
      dragSteps.map (dragPoint fromY toY) := List.map_map
  rw [hfst, hsnd, approaches_iff, approaches_iff]

/-- **A drag to the column 300000000 never gets there**: its last position is to the left of where
it began. -/
theorem drag_turns_back :
    (dragPositions 0 0 300000000 0).getLast? = some (-129496729, 0) ∧
      ¬Approaches 0 300000000 ((dragPositions 0 0 300000000 0).map Prod.fst) :=
  ⟨by decide, fun h ↦ absurd h.arrives (by decide)⟩

end RdpMcp
