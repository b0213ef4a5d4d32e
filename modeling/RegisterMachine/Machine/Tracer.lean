import RegisterMachine.Machine.Step

/-!
# Tracers

A tracer follows the hook calls of a run. Several tracers can be attached as one, which passes
every call on to each of them in turn.
-/

set_option autoImplicit false

namespace RegisterMachine

universe u

/-- What a tracer has made of the hook calls so far, and what it makes of the next one. -/
structure Tracer (σ : Type u) where
  state : σ
  follow : σ → Event → σ

namespace Tracer

variable {σ : Type u}

def hook (t : Tracer σ) (e : Event) : Tracer σ :=
  { t with state := t.follow t.state e }

def watch (t : Tracer σ) (calls : List Event) : Tracer σ :=
  calls.foldl hook t

/-- The tracers that are there, attached as one. -/
def multi (tracers : List (Option (Tracer σ))) : Tracer (List (Tracer σ)) where
  state := tracers.filterMap id
  follow := fun ts e => ts.map (·.hook e)

end Tracer

end RegisterMachine
