/- # Stitchwork.Proofs.Project.Refusal — only configs refuse a choice.

A compilation that reports a value which is not allowed has failed where the value of a config was chosen: no other
step reports that.
-/
import Stitchwork.Proofs.Project.Reports

namespace Stitchwork.Project

open Stitchwork.Formula Stitchwork.Markup Stitchwork.Pattern

variable {α β : Type}

/-- The result is not the report that a config does not allow a value. -/
def NoRefusal (r : Except Error α) : Prop := ∀ value config, r ≠ .error (.notAllowed value config)

theorem noRefusal_ok (a : α) : NoRefusal (.ok a) := fun _ _ h => nomatch h

theorem noRefusal_error {e : Error} (h : ∀ value config, e ≠ .notAllowed value config) :
    NoRefusal (.error e : Except Error α) :=
  fun value config heq => h value config (Except.error.inj heq)

theorem noRefusal_bind {r : Except Error α} {f : α → Except Error β} (hr : NoRefusal r)
    (hf : ∀ a, NoRefusal (f a)) : NoRefusal (r >>= f) :=
  fun value config => avoids_bind (hr value config) fun a => hf a value config

theorem noRefusal_listMapM {f : α → Except Error β} (hf : ∀ a, NoRefusal (f a)) (xs : List α) :
    NoRefusal (xs.mapM f) :=
  fun value config => avoids_listMapM fun a _ => hf a value config

/-! ## Steps that refuse nothing -/

theorem noRefusal_expandText (scope : Scope) (s : String) : NoRefusal (expandText scope s) :=
  fun _ _ => avoids_expandText rfl scope s

theorem noRefusal_configElement (c : Config) (v : Value) : NoRefusal (configElement c v) :=
  fun _ _ => avoids_configElement rfl c v

theorem noRefusal_parts (c : Context) : NoRefusal (parts c) :=
  fun _ _ => avoids_parts rfl nofun (storedAvoid_of_isForeign rfl c.document)

theorem noRefusal_colorElement (chosen : Table String) (c : Color) : NoRefusal (colorElement chosen c) :=
  fun _ _ => avoids_colorElement rfl chosen c

theorem noRefusal_evaluateValues (globals : Scope) (vs : List NamedValue) : NoRefusal (evaluateValues globals vs).2 :=
  fun _ _ => avoids_evaluateValues rfl globals vs

theorem noRefusal_write (project : Expansion) : NoRefusal (write project) := fun _ _ => avoids_write rfl project

end Stitchwork.Project
