import PlaintextEquivalence.Simulation.World

/-!
# Journals

What a village was asked, line by line: the calls that its trustees received, and the steps and ends
of runs that were noted.

Models a `PepMetrics` and trustees that record what they are called with.
-/

namespace PlaintextEquivalence

variable {G : PrimeGroup}

def Outcome.text : Outcome → String
  | .equal => "equal"
  | .notEqual => "not_equal"
  | .failed => "failed"

/-- The line for a call to a trustee. -/
def Question.call? : Question G → Option String
  | .blind j request =>
    some ("blind #" ++ toString j ++ " " ++ request.run.text ++ " " ++
      toString request.ciphertexts.length)
  | .challenge j request =>
    some ("challenge #" ++ toString j ++ " " ++ request.run.text ++ " " ++
      toString request.challenges.length)
  | .release j run => some ("release #" ++ toString j ++ " " ++ run.text)
  | _ => none

/-- The line for a step or an end of a run. -/
def Question.note? : Question G → Option String
  | .reached milestone => some milestone.text
  | .ended outcome => some ("=" ++ outcome.text)
  | _ => none

namespace Village

/-- The calls that trustees received, in order. -/
def calls (v : Village G) : List String := v.asked.reverse.filterMap (·.call?)

/-- The steps and ends of runs, in order. -/
def notes (v : Village G) : List String := v.asked.reverse.filterMap (·.note?)

end Village

end PlaintextEquivalence
