namespace CrashCapture

universe u

variable {ε σ α β : Type u}

theorem run_throw (e : ε) (s : σ) : (throw e : EStateM ε σ α).run s = .error e s := rfl

theorem run_bind_ok {x : EStateM ε σ α} {s s' : σ} {a : α} (h : x.run s = .ok a s')
    (f : α → EStateM ε σ β) : (x >>= f).run s = (f a).run s' := by
  rw [EStateM.run_bind, h]

theorem run_bind_error {x : EStateM ε σ α} {s s' : σ} {e : ε} (h : x.run s = .error e s')
    (f : α → EStateM ε σ β) : (x >>= f).run s = .error e s' := by
  rw [EStateM.run_bind, h]

theorem run_bind_eq_ok {x : EStateM ε σ α} {f : α → EStateM ε σ β} {s s'' : σ} {b : β}
    (h : (x >>= f).run s = .ok b s'') :
    ∃ a s', x.run s = .ok a s' ∧ (f a).run s' = .ok b s'' := by
  rw [EStateM.run_bind] at h
  cases hx : x.run s with
  | ok a s' =>
    rw [hx] at h
    exact ⟨a, s', rfl, h⟩
  | error e s' =>
    rw [hx] at h
    cases h

theorem run_bind_congr {x y : EStateM ε σ α} {s s' : σ} (h : x.run s = y.run s')
    (f : α → EStateM ε σ β) : (x >>= f).run s = (y >>= f).run s' := by
  rw [EStateM.run_bind, EStateM.run_bind, h]

theorem run_tryCatch (x : EStateM ε σ α) (f : ε → EStateM ε σ α) (s : σ) :
    (tryCatch x f).run s =
      match x.run s with
      | .ok a s' => .ok a s'
      | .error e s' => (f e).run s' := by
  change EStateM.tryCatch x f s = _
  delta EStateM.tryCatch
  change _ = match x s with
    | .ok a s' => EStateM.Result.ok a s'
    | .error e s' => f e s'
  dsimp only
  cases x s <;> rfl

theorem stateM_run_bind {x : StateM σ α} {s s' : σ} {a : α} (h : x.run s = (a, s'))
    (f : α → StateM σ β) : (x >>= f).run s = (f a).run s' := by
  rw [StateT.run_bind, h]
  rfl

theorem eq_of_fst_eq {x : α × β} {a : α} (h : x.1 = a) : x = (a, x.2) := Prod.ext h rfl

theorem stateM_run_get (f : σ → StateM σ β) (s : σ) : (get >>= f).run s = (f s).run s := rfl

theorem run_get (f : σ → EStateM ε σ β) (s : σ) : (get >>= f).run s = (f s).run s := rfl

theorem run_modify (g : σ → σ) (f : PUnit → EStateM ε σ β) (s : σ) :
    (modify g >>= f).run s = (f ⟨⟩).run (g s) := rfl

instance decidableEqExcept [DecidableEq ε] [DecidableEq α] : DecidableEq (Except ε α)
  | .ok a, .ok b => decidable_of_iff (a = b) (by simp)
  | .error e, .error e' => decidable_of_iff (e = e') (by simp)
  | .ok _, .error _ => .isFalse nofun
  | .error _, .ok _ => .isFalse nofun

instance decidableEqResult [DecidableEq ε] [DecidableEq σ] [DecidableEq α] :
    DecidableEq (EStateM.Result ε σ α)
  | .ok a s, .ok b s' => decidable_of_iff (a = b ∧ s = s') (by simp)
  | .error e s, .error e' s' => decidable_of_iff (e = e' ∧ s = s') (by simp)
  | .ok _ _, .error _ _ => .isFalse nofun
  | .error _ _, .ok _ _ => .isFalse nofun

/-- The state in which code ends, whether it failed or not. -/
def endState : EStateM.Result ε σ α → σ
  | .ok _ s => s
  | .error _ s => s

/-- What holds between the start and the end of two pieces of code holds for one after the other. -/
theorem endState_bind {R : σ → σ → Prop} (trans : ∀ a b c, R a b → R b c → R a c)
    {x : EStateM ε σ α} {f : α → EStateM ε σ β} {s : σ} (hx : R s (endState (x.run s)))
    (hf : ∀ a s', x.run s = .ok a s' → R s' (endState ((f a).run s'))) :
    R s (endState ((x >>= f).run s)) := by
  rw [EStateM.run_bind]
  cases h : x.run s with
  | ok a s' =>
    rw [h] at hx
    exact trans _ _ _ hx (hf a s' h)
  | error e s' =>
    rw [h] at hx
    exact hx

theorem endState_tryCatch {R : σ → σ → Prop} (trans : ∀ a b c, R a b → R b c → R a c)
    {x : EStateM ε σ α} {f : ε → EStateM ε σ α} {s : σ} (hx : R s (endState (x.run s)))
    (hf : ∀ e s', x.run s = .error e s' → R s' (endState ((f e).run s'))) :
    R s (endState ((tryCatch x f).run s)) := by
  rw [run_tryCatch]
  cases h : x.run s with
  | ok a s' =>
    rw [h] at hx
    exact hx
  | error e s' =>
    rw [h] at hx
    exact trans _ _ _ hx (hf e s' h)

end CrashCapture
