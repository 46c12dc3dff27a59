import MatrixCalculator.Double
import MatrixCalculator.Value

/-! Environments: the variables of a session, each with one value. -/
namespace MatrixCalculator

structure Environment where
  bindings : List (String × Value Float)

namespace Environment

def lookup (env : Environment) (name : String) : Option (Value Float) :=
  env.bindings.lookup name

def assign (env : Environment) (name : String) (value : Value Float) : Environment :=
  ⟨(name, value) :: env.bindings.filter (·.1 != name)⟩

def initial : Environment :=
  ⟨[("pi", .scalar 3.141592653589793), ("e", .scalar 2.718281828459045)]⟩

def ofVariables (given : List (String × Value Float)) : Environment :=
  given.foldl (fun env v => env.assign v.1 v.2) initial

/-- The names of all variables in ascending order. -/
def names (env : Environment) : List String :=
  (env.bindings.map (·.1)).mergeSort (fun a b => decide (a ≤ b))

private theorem lookup_filter_other (name other : String) (different : other ≠ name) :
    ∀ bindings : List (String × Value Float),
      (bindings.filter (·.1 != name)).lookup other = bindings.lookup other
  | [] => rfl
  | (key, value) :: rest => by
    have later := lookup_filter_other name other different rest
    by_cases same : key = name
    · subst same
      have apart : (other == key) = false := by simpa using different
      simp [List.lookup_cons, apart, later]
    · simp [same, List.lookup_cons, later]

@[simp] theorem lookup_assign_self (env : Environment) (name : String) (value : Value Float) :
    (env.assign name value).lookup name = some value := by
  simp [lookup, assign]

theorem lookup_assign_other (env : Environment) {name other : String} (value : Value Float)
    (different : other ≠ name) : (env.assign name value).lookup other = env.lookup other := by
  have apart : (other == name) = false := by simpa using different
  simp [lookup, assign, List.lookup_cons, apart, lookup_filter_other name other different]

end Environment

end MatrixCalculator
