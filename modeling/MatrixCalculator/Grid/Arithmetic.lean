import MatrixCalculator.Grid

/-! Sums, products and powers of grids. A cell of a product is accumulated from zero in the
order of the inner index, so that the result is determined also for rounded arithmetic. -/
namespace MatrixCalculator.Grid

variable {α : Type} {m n p : Nat}

def zero [Zero α] (m n : Nat) : Grid α m n :=
  ofFn fun _ _ => 0

def identity [Zero α] [One α] (n : Nat) : Grid α n n :=
  ofFn fun i j => if i = j then 1 else 0

@[simp] theorem get_identity [Zero α] [One α] (i j : Fin n) :
    (identity n : Grid α n n).get i j = if i = j then 1 else 0 :=
  get_ofFn _ i j

def add [Add α] (g h : Grid α m n) : Grid α m n :=
  ofFn fun i j => g.get i j + h.get i j

@[simp] theorem get_add [Add α] (g h : Grid α m n) (i : Fin m) (j : Fin n) :
    (g.add h).get i j = g.get i j + h.get i j :=
  get_ofFn _ i j

def scale [Mul α] (factor : α) (g : Grid α m n) : Grid α m n :=
  g.map (· * factor)

@[simp] theorem get_scale [Mul α] (factor : α) (g : Grid α m n) (i : Fin m) (j : Fin n) :
    (g.scale factor).get i j = g.get i j * factor :=
  get_map _ g i j

def mul [Zero α] [Add α] [Mul α] (g : Grid α m n) (h : Grid α n p) : Grid α m p :=
  ofFn fun i j => (List.finRange n).foldl (fun total k => total + g.get i k * h.get k j) 0

@[simp] theorem get_mul [Zero α] [Add α] [Mul α] (g : Grid α m n) (h : Grid α n p)
    (i : Fin m) (j : Fin p) :
    (g.mul h).get i j =
      (List.finRange n).foldl (fun total k => total + g.get i k * h.get k j) 0 :=
  get_ofFn _ i j

/-- Multiplies `result` by the `k`-th power of `base`, squaring the base once for each binary
digit of `k` after the first. -/
def timesPower [Zero α] [Add α] [Mul α] (result base : Grid α n n) (k : Nat) : Grid α n n :=
  if done : k = 0 then result
  else
    let next := if k % 2 = 1 then result.mul base else result
    if k / 2 = 0 then next else timesPower next (base.mul base) (k / 2)
termination_by k
decreasing_by omega

def power [Zero α] [One α] [Add α] [Mul α] (base : Grid α n n) (k : Nat) : Grid α n n :=
  timesPower (identity n) base k

end MatrixCalculator.Grid
