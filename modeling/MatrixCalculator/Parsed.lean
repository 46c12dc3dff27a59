/-! Results of reading an item from the front of a list. The rest comes with the proof that it
is shorter than the input, so that a reader which goes on with it ends on every input. -/
namespace MatrixCalculator

variable {τ : Type}

/-- An item and a rest that is shorter than the input. -/
structure Parsed (input : List τ) (β : Type) where
  item : β
  rest : List τ
  shorter : rest.length < input.length

/-- An item and a rest that is no longer than the input. -/
structure Continued (input : List τ) (β : Type) where
  item : β
  rest : List τ
  noLonger : rest.length ≤ input.length

namespace Parsed

/-- What is left when something more stands in front of the input. -/
def after {input more : List τ} {β : Type} (p : Parsed input β)
    (fewer : input.length ≤ more.length) : Parsed more β :=
  ⟨p.item, p.rest, Nat.lt_of_lt_of_le p.shorter fewer⟩

def map {input : List τ} {β γ : Type} (f : β → γ) (p : Parsed input β) : Parsed input γ :=
  ⟨f p.item, p.rest, p.shorter⟩

end Parsed

end MatrixCalculator
