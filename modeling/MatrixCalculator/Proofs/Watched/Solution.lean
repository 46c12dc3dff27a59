import MatrixCalculator.Proofs.LinearSystem.Scanning
import MatrixCalculator.Proofs.Watched.Inverse
import MatrixCalculator.Proofs.Watched.Reduction

/-! Watched solutions of linear systems. A system is solved by the inverse of its coefficients or
by reduction, and is reported whatever its numbers are; two values that form no system are refused
before anything is computed. Comparisons and texts are taken as they are here: that those of
doubles neither divide by zero nor round what is not finite is `Checked.isZero_eq_ok` and
`Checked.text_eq_ok`. -/
namespace MatrixCalculator.Watched

open LinearSystem (Report)

variable {α : Type} [Scalar α] {n : Nat}

def solveByReduction (a b : DenseMatrix α) : Run α (Report α) := do
  let reduced ← reduceFrom (List.range a.cols) 0 (← LinearSystem.augment a b)
  LinearSystem.Scan.readOff reduced a.cols

def solveByInverse (a b : DenseMatrix α) : Run α (Report α) := do
  let inverted ← inverse a
  return ⟨"compatible determined", a.cols, a.cols, some (← inverted.mul b), []⟩

def solve (a b : DenseMatrix α) : Run α (Report α) :=
  if a.rows = a.cols then do
    if ← test (← determinant a) then solveByReduction a b
    else solveByInverse a b
  else solveByReduction a b

def solveSystem (v w : Value α) : Run α (Report α) := do
  let s ← LinearSystem.ofValues v w
  solve (DenseMatrix.ofGrid s.coefficients) (DenseMatrix.ofGrid s.constants)

section Forming

variable {β : Type}

/-- Whether two values form a system: a matrix with a column, and a column of as many rows. -/
def IsSystem : Value β → Value β → Prop
  | .matrix a, .matrix b => a.cols ≠ 0 ∧ a.rows = b.rows ∧ b.cols = 1
  | _, _ => False

theorem ofValues_cases (v w : Value β) :
    (IsSystem v w ∧ ∃ s, LinearSystem.ofValues v w = .ok s) ∨
      (¬IsSystem v w ∧ ∃ defect, LinearSystem.ofValues v w = .error (.notSystem defect)) := by
  unfold LinearSystem.ofValues
  split
  · exact .inr ⟨id, _, rfl⟩
  · exact .inr ⟨id, _, rfl⟩
  · split
    · next narrow => exact .inr ⟨fun formed => formed.1 narrow, _, rfl⟩
    · next wide =>
      split
      · next rows =>
        split
        · next column => exact .inl ⟨⟨wide, rows.symm, column⟩, _, rfl⟩
        · next columns => exact .inr ⟨fun formed => columns formed.2.2, _, rfl⟩
      · next rows => exact .inr ⟨fun formed => rows formed.2.1.symm, _, rfl⟩

end Forming

def Reports (run : Run α (Report α)) (outcome : Except Fault (LinearSystem.Solution α n)) : Prop :=
  ∃ events found, run = done events found.report ∧ outcome = .ok found ∧ Vouches events

theorem Reports.behind {run : Run α (Report α)}
    {outcome : Except Fault (LinearSystem.Solution α n)} (reports : Reports run outcome)
    {events : List (Event α)} (vouches : Vouches events) :
    Reports (run.behind events) outcome := by
  obtain ⟨later, found, rfl, answered, divides⟩ := reports
  exact ⟨events ++ later, found, behind_done, answered, vouches.append divides⟩

theorem solveByReduction_reports (s : LinearSystem α) :
    Reports (solveByReduction (DenseMatrix.ofGrid s.coefficients) (DenseMatrix.ofGrid s.constants))
      s.solveByReduction.outcome := by
  obtain ⟨events, final, reached, plain, vouches⟩ :=
    reduceFrom_ofGrid (List.finRange s.unknowns) ⟨s.augmented, 0⟩
  obtain ⟨found, classified, read⟩ := LinearSystem.Scan.readOff_ofGrid final.grid
  have reduces : reduceFrom (List.range (DenseMatrix.ofGrid s.coefficients).cols) 0
      (DenseMatrix.ofGrid s.augmented) = done events (DenseMatrix.ofGrid final.grid) := by
    rw [← reached, List.map_coe_finRange_eq_range]
    rfl
  refine ⟨events, found, ?_, ?_, vouches⟩
  · rw [solveByReduction, read_bind (LinearSystem.augment_ofGrid s), reduces, done_bind]
    refine congrArg _ (Watched.read read) |>.trans ?_
    rw [behind_done, List.append_nil]
  · have reduced : s.reduce = .ok final := plain
    rw [LinearSystem.solveByReduction, Calculation.outcome_bind, Calculation.outcome_ofExcept,
      reduced]
    exact classified

theorem inverse_of_follows {g : Grid α n n} {size : α}
    (follows : Follows (DenseMatrix.ofGrid g) size) (nonzero : isZero size = false) :
    ∃ events h, inverse (DenseMatrix.ofGrid g) = done events (DenseMatrix.ofGrid h) ∧
      g.inverse.outcome = .ok h ∧ Vouches events := by
  obtain ⟨h, inverted⟩ := (follows.repeats nonzero).returns
  refine ⟨(inverse (DenseMatrix.ofGrid g)).events, h, Run.eq_done inverted, ?_,
    follows.vouches rfl⟩
  have model := (follows.outcome_eq.symm.trans inverted).symm.trans (DenseMatrix.inverse_ofGrid g)
  cases plain : g.inverse.outcome with
  | error fault =>
    rw [plain] at model
    cases model
  | ok k =>
    rw [plain] at model
    cases model
    rfl

/-- The inverse has the shape of the coefficients, so its product with the constants is defined. -/
theorem solveByInverse_reports {g : Grid α n n} {size : α}
    (follows : Follows (DenseMatrix.ofGrid g) size) (nonzero : isZero size = false)
    (constants : Grid α n 1) :
    Reports (solveByInverse (DenseMatrix.ofGrid g) (DenseMatrix.ofGrid constants))
      (g.inverse.outcome >>= fun h => .ok ⟨n, .determined (h.mul constants)⟩) := by
  obtain ⟨events, h, inverts, inverted, vouches⟩ := inverse_of_follows follows nonzero
  refine ⟨events, ⟨n, .determined (h.mul constants)⟩, ?_, congrArg (· >>= _) inverted, vouches⟩
  rw [solveByInverse, inverts, done_bind, read_bind (DenseMatrix.mul_ofGrid h constants), pure_eq,
    behind_done, List.append_nil]
  rfl

theorem solve_square_reports (zero : isZero (0 : α) = true) (g : Grid α n n)
    (constants : Grid α n 1) :
    Reports (solve (DenseMatrix.ofGrid g) (DenseMatrix.ofGrid constants))
      (LinearSystem.solve ⟨n, n, g, constants⟩).outcome := by
  obtain ⟨events, size, determines, computed, tested⟩ := determinant_ofGrid g
  obtain ⟨_, follows⟩ := follows_ofGrid zero g
  cases Except.ok.inj (follows.computed.symm.trans (congrArg Run.outcome determines))
  have square : solve (DenseMatrix.ofGrid g) (DenseMatrix.ofGrid constants) = _ := if_pos rfl
  have plain : LinearSystem.solve ⟨n, n, g, constants⟩ = (g.determinant >>= fun size => _) :=
    dif_pos rfl
  rw [square, determines, done_bind, test, done_bind, plain, Calculation.outcome_bind, computed,
    Checked.ok_bind]
  refine Reports.behind (Reports.behind ?_ (.test _ _)) tested.divides
  cases counts : isZero size with
  | true => exact solveByReduction_reports ⟨n, n, g, constants⟩
  | false =>
    rw [if_neg Bool.false_ne_true, if_neg Bool.false_ne_true, Calculation.outcome_bind,
      Calculation.outcome_note, Checked.ok_bind, Calculation.outcome_bind]
    exact solveByInverse_reports follows counts constants

theorem solve_reports (zero : isZero (0 : α) = true) (s : LinearSystem α) :
    Reports (solve (DenseMatrix.ofGrid s.coefficients) (DenseMatrix.ofGrid s.constants))
      s.solve.outcome := by
  obtain ⟨equations, unknowns, coefficients, constants⟩ := s
  by_cases same : equations = unknowns
  · subst same
    exact solve_square_reports zero coefficients constants
  · have other : solve (DenseMatrix.ofGrid coefficients) (DenseMatrix.ofGrid constants) = _ :=
      if_neg same
    have plain : LinearSystem.solve ⟨equations, unknowns, coefficients, constants⟩ = _ :=
      dif_neg same
    rw [other, plain]
    exact solveByReduction_reports _

/-- How two values are answered. They are refused if they form no system and only then;
otherwise the solution of the system is reported. -/
structure Answered (v w : Value α) : Prop where
  refuses : (∃ defect, (solveSystem v w).outcome = .error (.notSystem defect)) ↔ ¬IsSystem v w
  answers : IsSystem v w → ∃ report, (solveSystem v w).outcome = .ok report
  solution : (solveSystem v w).outcome =
    LinearSystem.ofValues v w >>= fun s => s.solve.outcome.map (·.report)
  divides : Vouches (solveSystem v w).events

/-- No system fails on its numbers, be they infinite or no numbers at all. -/
theorem solveSystem_answered (zero : isZero (0 : α) = true) (v w : Value α) : Answered v w := by
  rcases ofValues_cases v w with ⟨formed, s, same⟩ | ⟨unformed, defect, same⟩
  · obtain ⟨events, found, reached, answered, vouches⟩ := solve_reports zero s
    have run : solveSystem v w = done events found.report := by
      rw [solveSystem, read_bind same, reached]
    refine ⟨?_, fun _ => ⟨found.report, by rw [run]; rfl⟩, ?_, by rw [run]; exact vouches⟩
    · rw [run]
      exact ⟨fun ⟨_, refused⟩ => (by cases refused), fun unformed => absurd formed unformed⟩
    · rw [run, same, Checked.ok_bind, answered]
      rfl
  · have run : solveSystem v w = ⟨[], .error (.notSystem defect)⟩ := by
      rw [solveSystem, same]
      rfl
    refine ⟨?_, fun formed => absurd formed unformed, ?_, by rw [run]; exact .nil⟩
    · exact ⟨fun _ => unformed, fun _ => ⟨defect, by rw [run]⟩⟩
    · rw [run, same]
      rfl

theorem solveSystem_answered_not_finite :
    let v : Value Float := .matrix (DenseMatrix.ofGrid (Grid.ofFn fun (i j : Fin 2) =>
      if i = j then 1 / 0 else 0 / 0))
    let w : Value Float :=
      .matrix (DenseMatrix.ofGrid (Grid.ofFn fun (_ : Fin 2) (_ : Fin 1) => 0 / 0))
    IsSystem v w ∧ Answered v w :=
  ⟨⟨Nat.succ_ne_zero 1, rfl, rfl⟩, solveSystem_answered rfl _ _⟩

end MatrixCalculator.Watched
