import MatrixCalculator.Proofs.Checked.Reduction
import MatrixCalculator.Proofs.LinearSystem.Scanning

/-! Checked solutions of linear systems: the scans of a reduced matrix for its rank and for a
contradiction, and the solution or the lines that are read off. -/
namespace MatrixCalculator.Checked

def zeroRow (m : DenseMatrix Float) (unknowns i : Nat) : Except Fault Bool :=
  (List.range unknowns).allM fun (j : Nat) => do isZero (← m.get i j)

def nonzeroAt (m : DenseMatrix Float) (i j : Nat) : Except Fault Bool := do
  return !(← isZero (← m.get i j))

def rank (m : DenseMatrix Float) (unknowns : Nat) : Except Fault Nat := do
  let last ← (List.range m.rows).reverse.findM? fun i => return !(← zeroRow m unknowns i)
  return (last.map (· + 1)).getD 0

def contradiction (m : DenseMatrix Float) (unknowns rank : Nat) : Except Fault (Option Nat) :=
  (between rank m.rows).reverse.findM? fun i => nonzeroAt m i unknowns

def solutionColumn (m : DenseMatrix Float) (unknowns : Nat) :
    Except Fault (DenseMatrix Float) := do
  let blank ← DenseMatrix.new unknowns 1 none
  (List.range unknowns).foldlM (fun x (i : Nat) => do x.set i 0 (← m.get i unknowns)) blank

def leading (m : DenseMatrix Float) (unknowns i : Nat) : Except Fault Nat := do
  return (← (List.range unknowns).findM? (nonzeroAt m i)).getD unknowns

def appendTerm (m : DenseMatrix Float) (i : Nat) (line : String) (k : Nat) :
    Except (Stop Fault) String := do
  let coefficient ← m.get i k
  if ← isZero coefficient then return line
  else
    let sign := if 0 < coefficient then "-" else "+"
    let factor := String.ofList (← text (Scalar.magnitude coefficient))
    return line ++ s!" {sign} {factor}*x{k + 1}"

def opening (unknown : Nat) (constant : List Char) : String :=
  let constant := String.ofList constant
  s!"x{unknown + 1} = {constant}"

def line (m : DenseMatrix Float) (unknowns i : Nat) : Except (Stop Fault) String := do
  let j ← leading m unknowns i
  let constant ← text (← m.get i unknowns)
  (between (j + 1) unknowns).foldlM (appendTerm m i) (opening j constant)

def readOff (m : DenseMatrix Float) (unknowns : Nat) : Except (Stop Fault) (Value Float) := do
  let r ← rank m unknowns
  match ← contradiction m unknowns r with
  | some _ => throw (.fault .incompatible)
  | none =>
    if r = unknowns then return .matrix (← solutionColumn m unknowns)
    else
      let lines ← (List.range r).mapM (line m unknowns)
      throw (.fault (.indeterminate lines r (unknowns - r)))

def solveByReduction (a b : DenseMatrix Float) : Except (Stop Fault) (Value Float) := do
  let reduced ← reduceFrom a.cols 0 0 (← augment a b)
  readOff reduced a.cols

def solve (a b : DenseMatrix Float) : Except (Stop Fault) (Value Float) :=
  if a.rows = a.cols then do
    if ← isZero (← determinant a) then solveByReduction a b
    else
      let inverted ← inverse a
      return .matrix (← inverted.mul b)
  else solveByReduction a b

def solveUniquely (v w : Value Float) : Except (Stop Fault) (Value Float) := do
  let s ← LinearSystem.ofValues v w
  solve (DenseMatrix.ofGrid s.coefficients) (DenseMatrix.ofGrid s.constants)

variable {m n : Nat}

/-- The comparisons of a scan never fail, so a checked scan is the plain one. -/
theorem nonzeroAt_eq (m : DenseMatrix Float) (i j : Nat) :
    nonzeroAt m i j = LinearSystem.Scan.nonzeroAt m i j := by
  simp only [nonzeroAt, isZero_eq_ok, ok_bind]
  rfl

theorem zeroRow_eq (m : DenseMatrix Float) (unknowns i : Nat) :
    zeroRow m unknowns i = LinearSystem.Scan.zeroRow m unknowns i := by
  simp only [zeroRow, isZero_eq_ok]
  rfl

theorem rank_ofGrid (g : Grid Float m (n + 1)) :
    rank (DenseMatrix.ofGrid g) n = .ok (LinearSystem.rank g) := by
  simp only [rank, zeroRow_eq]
  exact LinearSystem.Scan.rank_ofGrid g

theorem contradiction_ofGrid (g : Grid Float m (n + 1)) :
    contradiction (DenseMatrix.ofGrid g) n (LinearSystem.rank g) =
      .ok ((LinearSystem.contradiction g).map Fin.val) := by
  simp only [contradiction, nonzeroAt_eq]
  exact LinearSystem.Scan.contradiction_ofGrid g

theorem leading_ofGrid (g : Grid Float m (n + 1)) (i : Fin m) :
    leading (DenseMatrix.ofGrid g) n i = .ok (LinearSystem.leading g i) := by
  have numbers : nonzeroAt (DenseMatrix.ofGrid g) i = LinearSystem.Scan.nonzeroAt _ i :=
    funext (nonzeroAt_eq _ _)
  rw [leading, numbers]
  exact LinearSystem.Scan.leading_ofGrid g i

theorem appendTerm_ofGrid (g : Grid Float m n) (i : Fin m) (j : Fin n) (line : String) :
    appendTerm (DenseMatrix.ofGrid g) i line j =
      .ok (if MatrixCalculator.isZero (g.get i j) then line
        else line ++ (LinearSystem.Scan.term (g.get i j) j).text) := by
  rw [appendTerm, DenseMatrix.get_ofGrid, lift_ok, ok_bind, isZero_eq_ok, lift_ok, ok_bind]
  split
  · rfl
  · rw [text_eq_ok, ok_bind]
    simp only [LinearSystem.Scan.term, LinearSystem.Term.text, decide_eq_true_eq]
    rfl

theorem opening_eq (unknown : Nat) (constant : Float) :
    LinearSystem.Scan.opening unknown constant =
      opening unknown (Display.scalar Display.defaultPlaces constant) :=
  String.append_empty

theorem line_ofGrid (g : Grid Float m (n + 1)) (i : Fin m) :
    line (DenseMatrix.ofGrid g) n i = .ok (LinearSystem.lineOf g i).text := by
  have constant : (DenseMatrix.ofGrid g).get i n = .ok (g.get i (Fin.last n)) :=
    DenseMatrix.get_ofGrid g i (Fin.last n)
  rw [line, leading_ofGrid, lift_ok, ok_bind, constant, lift_ok, ok_bind, text_eq_ok, ok_bind,
    between_eq_map, List.foldlM_map, LinearSystem.Scan.text_lineOf, opening_eq]
  refine foldlM_eq_ok id _ (fun line j _ => ?_) _
  exact appendTerm_ofGrid g i j.castSucc line

def reported (found : LinearSystem.Solution Float n) : Except (Stop Fault) (Value Float) :=
  match found.outcome with
  | .determined solution => .ok (.matrix (DenseMatrix.ofGrid solution))
  | .incompatible => .error (.fault .incompatible)
  | .indeterminate lines =>
    .error (.fault (.indeterminate (lines.map LinearSystem.Line.text) found.dependent
      found.independent))

theorem lines_ofGrid (g : Grid Float m (n + 1)) :
    (List.range (LinearSystem.rank g)).mapM (line (DenseMatrix.ofGrid g) n) =
      .ok ((LinearSystem.parametrization g).map LinearSystem.Line.text) := by
  rw [LinearSystem.Scan.range_rank, LinearSystem.parametrization, List.map_map]
  exact mapM_eq_ok (fun i => line_ofGrid g i) _

theorem readOff_ofGrid (g : Grid Float m (n + 1)) :
    readOff (DenseMatrix.ofGrid g) n =
      (liftM (LinearSystem.classify g).outcome : Except (Stop Fault) _) >>= reported := by
  rw [readOff, rank_ofGrid, lift_ok, ok_bind, contradiction_ofGrid, lift_ok, ok_bind,
    LinearSystem.classify]
  cases LinearSystem.contradiction g with
  | some i => rfl
  | none =>
    dsimp only [Option.map_none]
    split
    · next full =>
      let rowOf (i : Fin n) : Fin m :=
        ⟨i, Nat.lt_of_lt_of_le (full.symm ▸ i.isLt) (LinearSystem.rank_le g)⟩
      have column : solutionColumn (DenseMatrix.ofGrid g) n = _ :=
        LinearSystem.solutionColumn_ofGrid g rowOf fun _ => rfl
      rw [column]
      rfl
    · next partly =>
      rw [lines_ofGrid]
      rfl

theorem solveByReduction_cases (s : LinearSystem Float) :
    ∃ found, s.solveByReduction.outcome = .ok found ∧
      solveByReduction (DenseMatrix.ofGrid s.coefficients) (DenseMatrix.ofGrid s.constants) =
        reported found := by
  obtain ⟨final, reached, below⟩ := reduceFrom_ofGrid 0 (Nat.zero_le s.unknowns) ⟨s.augmented, 0⟩
  obtain ⟨found, answered, _⟩ := LinearSystem.Scan.readOff_ofGrid final.grid
  have reduced : s.reduce = .ok final := reached
  have checked : reduceFrom (DenseMatrix.ofGrid s.coefficients).cols 0 0
      (DenseMatrix.ofGrid s.augmented) = .ok (DenseMatrix.ofGrid final.grid) := below
  refine ⟨found, ?_, ?_⟩
  · rw [LinearSystem.solveByReduction, Calculation.outcome_bind, Calculation.outcome_ofExcept,
      reduced]
    exact answered
  · rw [solveByReduction, augment_ofGrid, lift_ok, ok_bind, checked, lift_ok, ok_bind]
    refine (readOff_ofGrid final.grid).trans ?_
    rw [answered]
    rfl

/-- A system is solved in the same way, and its solution is a fault of the input at worst. -/
theorem solve_cases (s : LinearSystem Float) :
    (s.solve.outcome = .error .singular ∧
      solve (DenseMatrix.ofGrid s.coefficients) (DenseMatrix.ofGrid s.constants) =
        .error (.fault .singular)) ∨
    ∃ found, s.solve.outcome = .ok found ∧
      solve (DenseMatrix.ofGrid s.coefficients) (DenseMatrix.ofGrid s.constants) =
        reported found := by
  obtain ⟨found, answered, checked⟩ := solveByReduction_cases s
  obtain ⟨equations, unknowns, coefficients, constants⟩ := s
  by_cases same : equations = unknowns
  · subst same
    obtain ⟨size, computed, _⟩ := Grid.determinant_cases coefficients
    have square : solve (DenseMatrix.ofGrid coefficients) (DenseMatrix.ofGrid constants) = _ :=
      if_pos rfl
    have plain : LinearSystem.solve ⟨equations, equations, coefficients, constants⟩ =
        (coefficients.determinant >>= fun size => _) := dif_pos rfl
    rw [square, determinant_ofGrid, computed, lift_ok, ok_bind, isZero_eq_ok, lift_ok, ok_bind,
      plain, Calculation.outcome_bind, computed, ok_bind]
    split
    · exact .inr ⟨found, answered, checked⟩
    · rw [Calculation.outcome_bind, Calculation.outcome_note, ok_bind, Calculation.outcome_bind]
      rcases inverse_cases coefficients with ⟨refused, fault⟩ | ⟨h, inverted, reached⟩
      · refine .inl ⟨?_, ?_⟩
        · exact congrArg (· >>= _) fault
        · rw [refused]
          rfl
      · refine .inr ⟨⟨equations, .determined (h.mul constants)⟩, ?_, ?_⟩
        · exact congrArg (· >>= _) reached
        · rw [inverted, lift_ok, ok_bind, DenseMatrix.mul_ofGrid]
          rfl
  · have other : solve (DenseMatrix.ofGrid coefficients) (DenseMatrix.ofGrid constants) = _ :=
      if_neg same
    have plain : LinearSystem.solve ⟨equations, unknowns, coefficients, constants⟩ = _ :=
      dif_neg same
    rw [other, plain]
    exact .inr ⟨found, answered, checked⟩

theorem reported_safe (found : LinearSystem.Solution Float n) :
    FailsOnly IsUserError (reported found) := by
  unfold reported
  split
  · exact failsOnly_ok _
  · rfl
  · rfl

theorem ofValues_safe (v w : Value Float) :
    FailsOnly UserFault (LinearSystem.ofValues v w) := by
  unfold LinearSystem.ofValues
  split
  · rfl
  · rfl
  · split
    · rfl
    · split
      · split
        · exact failsOnly_ok _
        · rfl
      · rfl

theorem solveUniquely_cases (v w : Value Float) :
    solveUniquely v w = liftM (LinearSystem.solveUniquely v w).outcome ∧
      FailsOnly IsUserError (solveUniquely v w) := by
  have formed := ofValues_safe v w
  rw [solveUniquely, LinearSystem.solveUniquely, Calculation.outcome_bind,
    Calculation.outcome_ofExcept]
  cases parsed : LinearSystem.ofValues v w with
  | error fault =>
    rw [parsed] at formed
    exact ⟨rfl, formed⟩
  | ok s =>
    rw [lift_ok, ok_bind, ok_bind, Calculation.outcome_bind]
    rcases solve_cases s with ⟨fault, refused⟩ | ⟨found, answered, checked⟩
    · rw [fault, refused]
      exact ⟨rfl, rfl⟩
    · rw [answered, checked, ok_bind]
      refine ⟨?_, reported_safe found⟩
      unfold reported
      cases found.outcome <;> rfl

end MatrixCalculator.Checked
