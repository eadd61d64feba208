import UnderscoreLint.Action

/-!
# Runs of actions

An action is known by its runs: from a state it gives an outcome and leaves a state. The
lemmas here say what the runs of each form of action are, so that no later proof has to look
into the layers an action is made of.

`Action.each` stops at the first call that fails. `recorded f` makes the same calls as `f` and
writes each of them down, which turns the order of calls into a part of the state. The two
lemmas about it say that nothing is written after a failure, and nothing is left out before.
-/

namespace UnderscoreLint

namespace Action

variable {σ ε α β γ : Type}

@[simp] theorem runFrom_pure (a : α) (s : σ) :
    (pure a : Action σ ε α).runFrom s = (.ok a, s) := rfl

@[simp] theorem runFrom_modify (f : σ → σ) (s : σ) :
    (modify f : Action σ ε Unit).runFrom s = (.ok (), f s) := rfl

@[simp] theorem runFrom_get_bind (f : σ → Action σ ε α) (s : σ) :
    (get >>= f).runFrom s = (f s).runFrom s := rfl

theorem runFrom_bind_of_ok {x : Action σ ε α} {s s' : σ} {a : α} (f : α → Action σ ε β)
    (h : x.runFrom s = (.ok a, s')) : (x >>= f).runFrom s = (f a).runFrom s' := by
  change ExceptT.bindCont f (x.runFrom s).1 (x.runFrom s).2 = _
  rw [h]
  rfl

theorem runFrom_bind_of_error {x : Action σ ε α} {s s' : σ} {e : ε} (f : α → Action σ ε β)
    (h : x.runFrom s = (.error e, s')) : (x >>= f).runFrom s = (.error e, s') := by
  change ExceptT.bindCont f (x.runFrom s).1 (x.runFrom s).2 = _
  rw [h]
  rfl

/-- A sequence of two actions that succeeds does so in both of them. -/
theorem exists_of_runFrom_bind_ok {x : Action σ ε α} {f : α → Action σ ε β} {s s' : σ} {b : β}
    (h : (x >>= f).runFrom s = (.ok b, s')) :
    ∃ a mid, x.runFrom s = (.ok a, mid) ∧ (f a).runFrom mid = (.ok b, s') := by
  rcases hx : x.runFrom s with ⟨e | a, mid⟩
  · rw [runFrom_bind_of_error _ hx] at h
    cases h
  · rw [runFrom_bind_of_ok _ hx] at h
    exact ⟨a, mid, rfl, h⟩

/-- An outcome for which the state does not matter can be read off without the state between. -/
theorem fst_runFrom_bind_of_ok {x : Action σ ε α} {f : α → Action σ ε β} {s : σ} {a : α}
    {r : Except ε β} (hx : (x.runFrom s).1 = .ok a) (hf : ∀ s', ((f a).runFrom s').1 = r) :
    ((x >>= f).runFrom s).1 = r := by
  rw [runFrom_bind_of_ok f (Prod.ext hx rfl)]
  exact hf _

theorem fst_runFrom_bind_of_error {x : Action σ ε α} {f : α → Action σ ε β} {s : σ} {e : ε}
    (hx : (x.runFrom s).1 = .error e) : ((x >>= f).runFrom s).1 = .error e := by
  rw [runFrom_bind_of_error f (Prod.ext hx rfl)]

theorem fst_runFrom_adapt {ε' : Type} (f : ε → ε') (x : Action σ ε α) (s : σ) :
    (runFrom (ExceptT.adapt f x) s).1 = (x.runFrom s).1.mapError f := rfl

@[simp] theorem each_singleton (f : β → Action σ ε Unit) (b : β) : each f [b] = f b := by
  rw [each_cons, each_nil, bind_pure_unit]

/-- Calls for the parts of the members of a list are calls for all the parts. -/
theorem each_flatMap (f : β → Action σ ε Unit) (parts : γ → List β) (cs : List γ) :
    each f (cs.flatMap parts) = each (fun c => each f (parts c)) cs := by
  induction cs with
  | nil => rfl
  | cons c cs ih => rw [List.flatMap_cons, each_append, ih, each_cons]

/-- A sequence of calls that fails has a first call that fails. The calls before it succeed,
and what it leaves is what the sequence leaves. -/
theorem exists_of_each_error {f : β → Action σ ε Unit} {bs : List β} {s s' : σ} {e : ε}
    (h : (each f bs).runFrom s = (.error e, s')) :
    ∃ before b after a, bs = before ++ b :: after ∧
      (each f before).runFrom s = (.ok (), a) ∧ (f b).runFrom a = (.error e, s') := by
  induction bs generalizing s with
  | nil =>
      rw [each_nil, runFrom_pure] at h
      cases h
  | cons b bs ih =>
      rw [each_cons] at h
      rcases hb : (f b).runFrom s with ⟨_ | ⟨⟩, a⟩
      · rw [runFrom_bind_of_error _ hb] at h
        cases h
        exact ⟨[], b, bs, s, rfl, rfl, hb⟩
      · rw [runFrom_bind_of_ok _ hb] at h
        obtain ⟨before, c, after, a', rfl, hbefore, hc⟩ := ih h
        refine ⟨b :: before, c, after, a', rfl, ?_, hc⟩
        rw [each_cons, runFrom_bind_of_ok _ hb, hbefore]

/-- The calls of `f`, written down in the order in which they are made. -/
def recorded (f : β → Action σ ε Unit) (b : β) : Action (σ × List β) ε Unit := fun s =>
  let r := (f b).runFrom s.1
  (r.1, (r.2, s.2 ++ [b]))

theorem runFrom_recorded (f : β → Action σ ε Unit) (b : β) (s : σ) (log : List β) :
    (recorded f b).runFrom (s, log) =
      (((f b).runFrom s).1, (((f b).runFrom s).2, log ++ [b])) := rfl

/-- A sequence of calls that succeeds is written down as a whole. -/
theorem runFrom_each_recorded_of_ok {f : β → Action σ ε Unit} {bs : List β} {s s' : σ}
    (log : List β) (h : (each f bs).runFrom s = (.ok (), s')) :
    (each (recorded f) bs).runFrom (s, log) = (.ok (), (s', log ++ bs)) := by
  induction bs generalizing s log with
  | nil =>
      rw [each_nil, runFrom_pure] at h
      cases h
      rw [each_nil, runFrom_pure, List.append_nil]
  | cons b bs ih =>
      rw [each_cons] at h
      obtain ⟨⟨⟩, a, hb, hbs⟩ := exists_of_runFrom_bind_ok h
      have hr := runFrom_recorded f b s log
      rw [hb] at hr
      rw [each_cons, runFrom_bind_of_ok _ hr, ih (log ++ [b]) hbs, List.append_assoc,
        List.singleton_append]

/-- A sequence of calls that fails is written down up to the first call that fails. -/
theorem exists_of_each_recorded_error {f : β → Action σ ε Unit} {bs : List β} {s s' : σ} {e : ε}
    (log : List β) (h : (each f bs).runFrom s = (.error e, s')) :
    ∃ before b after a, bs = before ++ b :: after ∧
      (each f before).runFrom s = (.ok (), a) ∧ (f b).runFrom a = (.error e, s') ∧
      (each (recorded f) bs).runFrom (s, log) = (.error e, (s', log ++ before ++ [b])) := by
  obtain ⟨before, b, after, a, rfl, hbefore, hb⟩ := exists_of_each_error h
  refine ⟨before, b, after, a, rfl, hbefore, hb, ?_⟩
  have hr := runFrom_recorded f b a (log ++ before)
  rw [hb] at hr
  rw [each_append, runFrom_bind_of_ok _ (runFrom_each_recorded_of_ok log hbefore), each_cons,
    runFrom_bind_of_error _ hr]

end Action

end UnderscoreLint
