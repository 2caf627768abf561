
namespace TemplateTrace

def runFrom {ε σ α : Type} (act : ExceptT ε (StateM σ) α) (s : σ) : Except ε α × σ :=
  act.run.run s

variable {ε δ σ α β : Type}

theorem ok_bind (a : α) (f : α → Except ε β) : (.ok a >>= f) = f a := rfl

theorem ok_of_bind {x : Except ε α} {f : α → Except ε β} {b : β} (h : (x >>= f) = .ok b) :
    ∃ a, x = .ok a ∧ f a = .ok b := by
  rcases x with e | a
  · cases h
  · exact ⟨a, rfl, h⟩

theorem error_of_bind {x : Except ε α} {f : α → Except ε β} {e : ε} (h : (x >>= f) = .error e) :
    x = .error e ∨ ∃ a, x = .ok a ∧ f a = .error e := by
  rcases x with d | a
  · cases h
    exact .inl rfl
  · exact .inr ⟨a, rfl, h⟩

@[simp] theorem runFrom_pure (a : α) (s : σ) :
    runFrom (pure a : ExceptT ε (StateM σ) α) s = (.ok a, s) := rfl

theorem runFrom_bind_ok {x : ExceptT ε (StateM σ) α} {f : α → ExceptT ε (StateM σ) β} {s t : σ}
    {a : α} (h : runFrom x s = (.ok a, t)) : runFrom (x >>= f) s = runFrom (f a) t := by
  have hrun : x.run.run s = (.ok a, t) := h
  rw [runFrom, ExceptT.run_bind, StateT.run_bind, hrun]
  rfl

theorem runFrom_bind_error {x : ExceptT ε (StateM σ) α} {f : α → ExceptT ε (StateM σ) β}
    {s t : σ} {e : ε} (h : runFrom x s = (.error e, t)) :
    runFrom (x >>= f) s = (.error e, t) := by
  have hrun : x.run.run s = (.error e, t) := h
  rw [runFrom, ExceptT.run_bind, StateT.run_bind, hrun]
  rfl

theorem runFrom_bind_eq_ok {x : ExceptT ε (StateM σ) α} {f : α → ExceptT ε (StateM σ) β}
    {s u : σ} {b : β} (h : runFrom (x >>= f) s = (.ok b, u)) :
    ∃ a t, runFrom x s = (.ok a, t) ∧ runFrom (f a) t = (.ok b, u) := by
  rcases hx : runFrom x s with ⟨e | a, t⟩
  · rw [runFrom_bind_error hx] at h
    cases h
  · rw [runFrom_bind_ok hx] at h
    exact ⟨a, t, rfl, h⟩

theorem runFrom_bind_eq_error {x : ExceptT ε (StateM σ) α} {f : α → ExceptT ε (StateM σ) β}
    {s u : σ} {e : ε} (h : runFrom (x >>= f) s = (.error e, u)) :
    runFrom x s = (.error e, u) ∨ ∃ a t, runFrom x s = (.ok a, t) ∧ runFrom (f a) t = (.error e, u) := by
  rcases hx : runFrom x s with ⟨e' | a, t⟩
  · rw [runFrom_bind_error hx] at h
    cases h
    exact .inl rfl
  · rw [runFrom_bind_ok hx] at h
    exact .inr ⟨a, t, rfl, h⟩

theorem runFrom_map (x : ExceptT ε (StateM σ) α) (g : α → β) (s : σ) :
    runFrom (do return g (← x)) s = ((runFrom x s).1.map g, (runFrom x s).2) := by
  rcases h : runFrom x s with ⟨_ | a, t⟩
  · exact runFrom_bind_error h
  · exact runFrom_bind_ok h

@[simp] theorem runFrom_throw (e : ε) (s : σ) :
    runFrom (throw e : ExceptT ε (StateM σ) α) s = (.error e, s) := rfl

theorem mapError_error (f : ε → δ) (e : ε) :
    (Except.error e : Except ε α).mapError f = .error (f e) := rfl

theorem mapError_ok (f : ε → δ) (a : α) : (Except.ok a : Except ε α).mapError f = .ok a := rfl

theorem runFrom_adapt (f : ε → δ) (x : ExceptT ε (StateM σ) α) (s : σ) :
    runFrom (x.adapt f) s = ((runFrom x s).1.mapError f, (runFrom x s).2) := rfl

theorem runFrom_adapt_eq_ok_iff {f : ε → δ} {x : ExceptT ε (StateM σ) α} {s t : σ} {a : α} :
    runFrom (x.adapt f) s = (.ok a, t) ↔ runFrom x s = (.ok a, t) := by
  rw [runFrom_adapt]
  rcases runFrom x s with ⟨e | b, u⟩ <;> simp [mapError_error, mapError_ok]

theorem runFrom_adapt_error {x : ExceptT ε (StateM σ) α} {s t : σ} {e : ε}
    (h : runFrom x s = (.error e, t)) (f : ε → δ) : runFrom (x.adapt f) s = (.error (f e), t) := by
  rw [runFrom_adapt, h, mapError_error]

theorem of_runFrom_adapt_error {f : ε → δ} {x : ExceptT ε (StateM σ) α} {s t : σ} {d : δ}
    (h : runFrom (x.adapt f) s = (.error d, t)) : ∃ e, runFrom x s = (.error e, t) := by
  rw [runFrom_adapt] at h
  rcases hx : runFrom x s with ⟨e | a, u⟩
  · rw [hx] at h
    exact ⟨e, Prod.ext rfl (Prod.mk.inj h).2⟩
  · rw [hx] at h
    cases h

theorem adapt_bind (x : ExceptT ε (StateM σ) α) (g : α → ExceptT ε (StateM σ) β) (f : ε → δ) :
    (x >>= g).adapt f = x.adapt f >>= fun a => (g a).adapt f := by
  funext s
  show runFrom ((x >>= g).adapt f) s = runFrom (x.adapt f >>= fun a => (g a).adapt f) s
  rcases h : runFrom x s with ⟨e | a, t⟩
  · rw [runFrom_adapt, runFrom_bind_error h, runFrom_bind_error (runFrom_adapt_error h f)]
    rfl
  · rw [runFrom_adapt, runFrom_bind_ok h, runFrom_bind_ok (runFrom_adapt_eq_ok_iff.mpr h)]
    rfl

theorem adapt_adapt {γ : Type} (x : ExceptT ε (StateM σ) α) (f : ε → δ) (g : δ → γ) :
    (x.adapt f).adapt g = x.adapt fun e => g (f e) := by
  funext s
  show runFrom ((x.adapt f).adapt g) s = runFrom (x.adapt fun e => g (f e)) s
  simp only [runFrom_adapt]
  cases (runFrom x s).1 <;> rfl

theorem runFrom_tryCatch_ok {x : ExceptT ε (StateM σ) α} {s t : σ} {a : α}
    (h : runFrom x s = (.ok a, t)) (handle : ε → ExceptT ε (StateM σ) α) :
    runFrom (tryCatch x handle) s = (.ok a, t) := by
  have hrun : x.run.run s = (.ok a, t) := h
  rw [runFrom, ExceptT.run_tryCatch, StateT.run_bind, hrun]
  rfl

theorem runFrom_tryCatch_error {x : ExceptT ε (StateM σ) α} {s t : σ} {e : ε}
    (h : runFrom x s = (.error e, t)) (handle : ε → ExceptT ε (StateM σ) α) :
    runFrom (tryCatch x handle) s = runFrom (handle e) t := by
  have hrun : x.run.run s = (.error e, t) := h
  rw [runFrom, ExceptT.run_tryCatch, StateT.run_bind, hrun]
  rfl

theorem bind_of_eq {x : StateM σ α} {f : α → StateM σ β} {s t : σ} {a : α} (h : x s = (a, t)) :
    (x >>= f) s = f a t := by
  show f (x s).1 (x s).2 = f a t
  rw [h]

theorem runFrom_lift {act : StateM σ α} {s t : σ} {a : α} (h : act s = (a, t)) :
    runFrom (liftM act : ExceptT ε (StateM σ) α) s = (.ok a, t) := by
  show (Except.ok (act s).1, (act s).2) = _
  rw [h]

theorem runFrom_lift_run (x : ExceptT δ (StateM σ) α) (s : σ) :
    runFrom (liftM x.run : ExceptT ε (StateM σ) (Except δ α)) s =
      (.ok (runFrom x s).1, (runFrom x s).2) := rfl

theorem run_bind_of_runFrom {x : ExceptT ε (StateM σ) α} {f : Except ε α → StateM σ β} {s t : σ}
    {a : Except ε α} (h : runFrom x s = (a, t)) : (x.run >>= f) s = f a t := bind_of_eq h

def Preserves (Inv : σ → Prop) (act : ExceptT ε (StateM σ) α) : Prop :=
  ∀ s, Inv s → Inv (runFrom act s).2

namespace Preserves

variable {Inv : σ → Prop} {x : ExceptT ε (StateM σ) α}

theorem pure (a : α) : Preserves Inv (Pure.pure a : ExceptT ε (StateM σ) α) := fun _ h => h

theorem throw (e : ε) : Preserves Inv (MonadExcept.throw e : ExceptT ε (StateM σ) α) := fun _ h => h

theorem lift {act : StateM σ α} (h : ∀ s, Inv s → Inv (act s).2) :
    Preserves Inv (ExceptT.lift act : ExceptT ε (StateM σ) α) := h

theorem bind {f : α → ExceptT ε (StateM σ) β} (hx : Preserves Inv x)
    (hf : ∀ a, Preserves Inv (f a)) : Preserves Inv (x >>= f) := by
  intro s hs
  have hnext := hx s hs
  rcases h : runFrom x s with ⟨e | a, t⟩
  · rw [h] at hnext
    rw [runFrom_bind_error h]
    exact hnext
  · rw [h] at hnext
    rw [runFrom_bind_ok h]
    exact hf a t hnext

theorem tryCatch {handle : ε → ExceptT ε (StateM σ) α} (hx : Preserves Inv x)
    (hhandle : ∀ e, Preserves Inv (handle e)) : Preserves Inv (tryCatch x handle) := by
  intro s hs
  have hnext := hx s hs
  rcases h : runFrom x s with ⟨e | a, t⟩
  · rw [h] at hnext
    rw [runFrom_tryCatch_error h]
    exact hhandle e t hnext
  · rw [h] at hnext
    rw [runFrom_tryCatch_ok h]
    exact hnext

theorem adapt (hx : Preserves Inv x) (f : ε → δ) : Preserves Inv (x.adapt f) := by
  intro s hs
  rw [runFrom_adapt]
  exact hx s hs

end Preserves

end TemplateTrace
