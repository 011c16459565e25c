import OpenCrud.Schema.Basic

/-!
# The types that a schema reaches

A schema holds the types that can be reached from some of its types, in the order of a walk that goes deep
first: a type comes right before what it newly reaches. Types that are listed keep the order of the list,
also when another type reaches them early.

A walk makes as many steps as it finds types, so a bound on the number of types is a bound on its steps.
-/

namespace OpenCrud.Schema.Reach

/-- Types found by a walk, each with its reference, in the order in which they were found. -/
abbrev Found (ρ : Type) := List (ρ × NamedType ρ)

variable {ρ : Type} [DecidableEq ρ] {m : Type → Type} [Monad m]

/-- Whether a reference has been found. -/
def Found.has (found : Found ρ) (ref : ρ) : Bool := found.any (·.1 = ref)

/-- Adds to what was found what is reached from the references on the stack. References that are skipped
are not followed. -/
def walk (define : ρ → m (NamedType ρ)) (skip : ρ → Bool) :
    Nat → List ρ → Found ρ → m (Found ρ)
  | 0, _, found => pure found
  | steps + 1, stack, found =>
    match stack.dropWhile fun ref => skip ref || found.has ref with
    | [] => pure found
    | ref :: rest => do
      let t ← define ref
      walk define skip steps (t.body.refs ++ rest) (found ++ [(ref, t)])

/-- Adds the listed types with what each newly reaches. A listed type waits for its turn. -/
def walkListed (define : ρ → m (NamedType ρ)) (skip : ρ → Bool) (steps : Nat) :
    List ρ → Found ρ → m (Found ρ)
  | [], found => pure found
  | ref :: later, found => do
    let found ← walk define (fun r => skip r || later.contains r) steps [ref] found
    walkListed define skip steps later found

/-- The types reached from the listed types, then from the roots. -/
def types (define : ρ → m (NamedType ρ)) (skip : ρ → Bool) (steps : Nat) (listed roots : List ρ) :
    m (Found ρ) := do
  let found ← walkListed define skip steps listed []
  walk define skip steps roots found

/-- The first name that comes a second time, after the names seen. -/
def repeatedName? (seen : List String) : List String → Option String
  | [] => none
  | name :: names => if seen.contains name then some name else repeatedName? (name :: seen) names

end OpenCrud.Schema.Reach
