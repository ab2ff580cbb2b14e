import Mathlib.Logic.Basic

/-! # Computations that stop at the first failed check

A guarded computation is a value of `Except ε α`. The lemmas below read a
successful run backwards: each says exactly which checks passed and what was
bound, so that a caller never unfolds a computation to learn why it succeeded.
-/

namespace Checked

variable {ε α β σ : Type}

/-- Stop with `e` when `p` holds. -/
def rejectIf (p : Prop) [Decidable p] (e : ε) : Except ε Unit :=
  if p then .error e else .ok ()

/-- The value of an optional result, or the failure `e` when there is none. -/
def okOr (o : Option α) (e : ε) : Except ε α :=
  match o with
  | some a => .ok a
  | none => .error e

@[simp] theorem rejectIf_eq_ok {p : Prop} [Decidable p] {e : ε} {u : Unit} :
    rejectIf p e = .ok u ↔ ¬ p := by
  unfold rejectIf
  split <;> simp_all

@[simp] theorem okOr_eq_ok {o : Option α} {e : ε} {a : α} :
    okOr o e = .ok a ↔ o = some a := by
  cases o <;> simp [okOr]

/-- A sequence succeeds exactly when its first half does and hands its value to
a successful second half. -/
@[simp] theorem bind_eq_ok {x : Except ε α} {f : α → Except ε β} {b : β} :
    x >>= f = .ok b ↔ ∃ a, x = .ok a ∧ f a = .ok b := by
  cases x <;> simp [bind, Except.bind]

@[simp] theorem pure_eq_ok {a b : α} : (pure a : Except ε α) = .ok b ↔ a = b := by
  simp [pure, Except.pure]

@[simp] theorem throw_eq_ok {e : ε} {a : α} : (throw e : Except ε α) = .ok a ↔ False := by
  simp [throw, throwThe, MonadExceptOf.throw]

theorem rejectIf_eq_error {p : Prop} [Decidable p] {e e' : ε} :
    rejectIf p e = .error e' ↔ p ∧ e = e' := by
  unfold rejectIf
  split <;> simp_all

theorem okOr_eq_error {o : Option α} {e e' : ε} : okOr o e = .error e' ↔ o = none ∧ e = e' := by
  cases o <;> simp [okOr]

/-- A sequence fails where its first half does, or later. -/
theorem bind_eq_error {x : Except ε α} {f : α → Except ε β} {e : ε} :
    x >>= f = .error e ↔ x = .error e ∨ ∃ a, x = .ok a ∧ f a = .error e := by
  cases x <;> simp [bind, Except.bind]

theorem pure_eq_error {a : α} {e : ε} : (pure a : Except ε α) = .error e ↔ False := by
  simp [pure, Except.pure]

/-- A condition on a value that may be missing is checked on the value. -/
instance decidableOfSome {p : α → Prop} [DecidablePred p] :
    (o : Option α) → Decidable (∀ a, o = some a → p a)
  | none => .isTrue fun _ h => by cases h
  | some a => decidable_of_iff (p a) ⟨fun h _ heq => Option.some.inj heq ▸ h, fun h => h a rfl⟩

/-- Whether a computation ends in a given failure needs no equality of its values. -/
instance decidableFailure [DecidableEq ε] (e : ε) : (x : Except ε α) → Decidable (x = .error e)
  | .error e' => decidable_of_iff (e' = e) ⟨congrArg _, Except.error.inj⟩
  | .ok _ => .isFalse fun h => by cases h

/-- One loop of guarded steps over a list. -/
def each (step : σ → α → Except ε σ) : σ → List α → Except ε σ
  | s, [] => .ok s
  | s, a :: rest => step s a >>= fun s => each step s rest

@[simp] theorem each_nil (step : σ → α → Except ε σ) (s : σ) : each step s [] = .ok s := rfl

theorem each_cons_eq_ok {step : σ → α → Except ε σ} {s t : σ} {a : α} {rest : List α} :
    each step s (a :: rest) = .ok t ↔ ∃ m, step s a = .ok m ∧ each step m rest = .ok t := by
  simp [each]

theorem each_append (step : σ → α → Except ε σ) (xs ys : List α) :
    ∀ s, each step s (xs ++ ys) = each step s xs >>= fun s => each step s ys := by
  induction xs with
  | nil => intro s; rfl
  | cons a rest ih =>
      intro s
      rw [List.cons_append, each, each]
      cases step s a with
      | error e => rfl
      | ok t => exact ih t

/-- A loop in a loop is one loop over everything the inner loops see. -/
theorem each_each (step : σ → α → Except ε σ) (inner : β → List α) (xs : List β) :
    ∀ s, each (fun s b => each step s (inner b)) s xs = each step s (xs.flatMap inner) := by
  induction xs with
  | nil => intro s; rfl
  | cons b rest ih =>
      intro s
      rw [List.flatMap_cons, each_append, each]
      exact bind_congr ih

/-- What every step of a loop preserves holds after the loop. -/
theorem each_preserves {step : σ → α → Except ε σ} (P : σ → Prop)
    (hstep : ∀ s a t, P s → step s a = .ok t → P t) :
    ∀ (xs : List α) (s t : σ), P s → each step s xs = .ok t → P t := by
  intro xs
  induction xs with
  | nil =>
      intro s t hs h
      rw [each_nil, Except.ok.injEq] at h
      exact h ▸ hs
  | cons a rest ih =>
      intro s t hs h
      obtain ⟨m, hm, hrest⟩ := each_cons_eq_ok.mp h
      exact ih m t (hstep s a m hs hm) hrest

/-- A loop that goes through takes every element, in a state that `P` holds of. -/
theorem each_visits {step : σ → α → Except ε σ} (P : σ → Prop)
    (hstep : ∀ s a t, P s → step s a = .ok t → P t) :
    ∀ (xs : List α) (s t : σ), P s → each step s xs = .ok t →
      ∀ a ∈ xs, ∃ m m', P m ∧ step m a = .ok m' := by
  intro xs
  induction xs with
  | nil =>
      intro s t _ _ a ha
      cases ha
  | cons b rest ih =>
      intro s t hs h a ha
      obtain ⟨m, hm, hrest⟩ := each_cons_eq_ok.mp h
      rcases List.mem_cons.mp ha with rfl | ha
      · exact ⟨s, m, hs, hm⟩
      · exact ih m t (hstep s b m hs hm) hrest a ha

/-! ## What a computation has checked -/

/-- Whenever `x` succeeds, `p` was the case. -/
def Demands (p : Prop) (x : Except ε α) : Prop := ∀ a, x = .ok a → p

theorem Demands.of_rejectIf {p q : Prop} [Decidable q] {e : ε} (h : ¬ q → p) :
    Demands p (rejectIf q e) := fun _ hok => h (rejectIf_eq_ok.mp hok)

theorem Demands.first {p : Prop} {x : Except ε α} {f : α → Except ε β} (h : Demands p x) :
    Demands p (x >>= f) := by
  intro b hb
  obtain ⟨a, ha, -⟩ := bind_eq_ok.mp hb
  exact h a ha

theorem Demands.later {p : Prop} {x : Except ε α} {f : α → Except ε β}
    (h : ∀ a, Demands p (f a)) : Demands p (x >>= f) := by
  intro b hb
  obtain ⟨a, -, hrest⟩ := bind_eq_ok.mp hb
  exact h a b hrest

theorem Demands.after {p : Prop} {x : Except ε α} {f : α → Except ε β}
    (h : ∀ a, x = .ok a → Demands p (f a)) : Demands p (x >>= f) := by
  intro b hb
  obtain ⟨a, ha, hrest⟩ := bind_eq_ok.mp hb
  exact h a ha b hrest

/-! ## How a computation fails -/

/-- `x` fails, and the failure is one that `K` holds of. -/
def Fails (K : ε → Prop) (x : Except ε α) : Prop := ∃ e, x = .error e ∧ K e

section Fails

variable {K : ε → Prop} {x : Except ε α}

@[simp] theorem fails_ok {a : α} : Fails K (.ok a : Except ε α) ↔ False := by
  simp [Fails]

@[simp] theorem fails_pure {a : α} : Fails K (pure a : Except ε α) ↔ False := fails_ok

@[simp] theorem fails_check {q : Prop} [Decidable q] {e : ε} :
    Fails K (rejectIf q e) ↔ q ∧ K e := by
  simp [Fails, rejectIf_eq_error, and_assoc]

@[simp] theorem fails_found {o : Option α} {e : ε} : Fails K (okOr o e) ↔ o = none ∧ K e := by
  simp [Fails, okOr_eq_error, and_assoc]

/-- A sequence fails where its first half does, or later. -/
@[simp] theorem fails_bind {f : α → Except ε β} :
    Fails K (x >>= f) ↔ Fails K x ∨ ∃ a, x = .ok a ∧ Fails K (f a) := by
  simp only [Fails, bind_eq_error]
  constructor
  · rintro ⟨e, he | ⟨a, ha, he⟩, hK⟩
    · exact .inl ⟨e, he, hK⟩
    · exact .inr ⟨a, ha, e, he, hK⟩
  · rintro (⟨e, he, hK⟩ | ⟨a, ha, e, he, hK⟩)
    · exact ⟨e, .inl he, hK⟩
    · exact ⟨e, .inr ⟨a, ha, he⟩, hK⟩

@[simp] theorem fails_map {f : α → β} : Fails K (f <$> x) ↔ Fails K x := by
  cases x <;> simp [Fails, Functor.map, Except.map]

@[simp] theorem fails_branch {q : Prop} [Decidable q] {y : Except ε α} :
    Fails K (if q then x else y) ↔ q ∧ Fails K x ∨ ¬ q ∧ Fails K y := by
  split
  next hq => simp [hq]
  next hq => simp [hq]

end Fails

/-! ## Exactly when a computation fails -/

/-- Without `p` the computation fails with `e`; with it every failure that remains is in `T`. -/
structure Gated (p : Prop) (e : ε) (T : ε → Prop) (x : Except ε α) : Prop where
  fails : ¬ p → x = .error e
  remains : p → ∀ e', x = .error e' → T e'

/-- The computation goes through under `p` and fails with `e` without. -/
abbrev Needs (p : Prop) (e : ε) (x : Except ε α) : Prop := Gated p e (fun _ => False) x

section Gated

variable {p q : Prop} {e : ε} {T : ε → Prop} {x : Except ε α} {f : α → Except ε β} {a : α}

theorem Gated.congr (h : Gated p e T x) (hiff : q ↔ p) : Gated q e T x :=
  ⟨fun hq => h.fails (mt hiff.mpr hq), fun hq => h.remains (hiff.mp hq)⟩

theorem Gated.mono {T' : ε → Prop} (h : Gated p e T x) (himp : ∀ e', T e' → T' e') :
    Gated p e T' x := ⟨h.fails, fun hp e' he => himp e' (h.remains hp e' he)⟩

theorem Gated.pass (hx : x = .ok a) (hf : Gated p e T (f a)) : Gated p e T (x >>= f) := by
  rw [hx]
  exact hf

theorem Gated.guard {x : Except ε Unit} {f : Unit → Except ε β} (hx : x = .ok ())
    (hf : Gated p e T (f ())) : Gated p e T (x >>= f) := .pass hx hf

theorem Gated.check {c : Prop} [Decidable c] {e' : ε} {f : Unit → Except ε β} (h : ¬ c)
    (hf : Gated p e T (f ())) : Gated p e T (rejectIf c e' >>= f) := .pass (if_neg h) hf

theorem Gated.rejected {c : Prop} [Decidable c] {f : Unit → Except ε β} (h : c) :
    Gated False e T (rejectIf c e >>= f) := by
  rw [rejectIf, if_pos h]
  exact ⟨fun _ => rfl, False.elim⟩

theorem Gated.found {o : Option α} {e' : ε} (h : o = some a) (hf : Gated p e T (f a)) :
    Gated p e T (okOr o e' >>= f) := .pass (by rw [h]; rfl) hf

/-- A step that needs `p`, before one that is gated by `q`. -/
theorem Gated.bind (hx : Needs p e x) (hf : ∀ a, x = .ok a → Gated q e T (f a)) :
    Gated (p ∧ q) e T (x >>= f) := by
  cases hok : x with
  | error e' =>
      have hp : ¬ p := fun hp => hx.remains hp e' hok
      have hsame := Except.error.inj (hok.symm.trans (hx.fails hp))
      exact ⟨fun _ => congrArg Except.error hsame, fun h => absurd h.1 hp⟩
  | ok a =>
      have hp : p := Classical.byContradiction fun hp => by cases hok.symm.trans (hx.fails hp)
      exact ⟨fun h => (hf a hok).fails fun hq => h ⟨hp, hq⟩, fun h => (hf a hok).remains h.2⟩

/-- All failures are in `T`. -/
theorem Gated.always (h : ∀ e', x = .error e' → T e') : Gated True e T x :=
  ⟨fun hnot => absurd trivial hnot, fun _ => h⟩

/-- A step after which nothing is needed. -/
theorem Gated.through (hx : ∀ e', x = .error e' → T e') (hf : ∀ a, Gated True e T (f a)) :
    Gated True e T (x >>= f) := by
  refine .always fun e' he => ?_
  rcases bind_eq_error.mp he with hfirst | ⟨a, -, hlater⟩
  · exact hx e' hfirst
  · exact (hf a).remains trivial e' hlater

/-- The last step that needs anything. -/
theorem Gated.last (hx : Needs p e x) (hf : ∀ a, x = .ok a → Gated True e T (f a)) :
    Gated p e T (x >>= f) := by
  have h := Gated.bind hx hf
  exact ⟨fun hp => h.fails fun hboth => hp hboth.1, fun hp => h.remains ⟨hp, trivial⟩⟩

/-- A gate that stands only under a condition. -/
theorem Gated.when {c : Prop} [Decidable c] {y : Except ε α} (hx : c → Gated p e T x)
    (hy : Gated True e T y) : Gated (c → p) e T (if c then x else y) := by
  split
  next hc => exact ⟨fun h => (hx hc).fails (mt (fun hp _ => hp) h), fun h => (hx hc).remains (h hc)⟩
  next hc => exact ⟨fun h => absurd (fun hyes => absurd hyes hc) h, fun _ => hy.remains trivial⟩

theorem Gated.of_ok (h : x = .ok a) : Gated True e T x := .always fun e' he => by
  rw [h] at he
  cases he

theorem Needs.goes (h : Needs p e x) (hp : p) : ∃ a, x = .ok a := by
  cases hx : x with
  | error e' => exact (h.remains hp e' hx).elim
  | ok a => exact ⟨a, rfl⟩

/-- A loop needs what its steps need, while `I` holds of the state and the rest of the list. -/
theorem Needs.each {step : σ → α → Except ε σ} {need : α → Prop} {I : σ → List α → Prop}
    (hstep : ∀ s a rest, I s (a :: rest) → Needs (need a) e (step s a))
    (hkeep : ∀ s a rest t, I s (a :: rest) → step s a = .ok t → I t rest) :
    ∀ (xs : List α) (s : σ), I s xs → Needs (∀ a ∈ xs, need a) e (each step s xs) := by
  intro xs
  induction xs with
  | nil =>
      intro s _
      exact Gated.congr (.of_ok rfl) (iff_true_intro fun a ha => by cases ha)
  | cons a rest ih =>
      intro s hs
      refine Gated.congr ?_ List.forall_mem_cons
      exact .bind (hstep s a rest hs) fun t ht => ih t (hkeep s a rest t hs ht)

/-- The gate is the only reason for a failure outside `T`. -/
theorem Gated.eq_error_iff (h : Gated p e T x) (he : ¬ T e) : x = .error e ↔ ¬ p :=
  ⟨fun herr hp => he (h.remains hp e herr), h.fails⟩

theorem Gated.ne_error (h : Gated p e T x) {e' : ε} (hne : e ≠ e') (hT : ¬ T e') :
    x ≠ .error e' := by
  intro herr
  by_cases hp : p
  · exact hT (h.remains hp e' herr)
  · exact hne (Except.error.inj ((h.fails hp).symm.trans herr))

end Gated

/-! ## Failures that cannot occur -/

/-- `x` does not fail in a way that `T` holds of. -/
def Avoids (T : ε → Prop) (x : Except ε α) : Prop := ∀ e, x = .error e → ¬ T e

section Avoids

variable {T : ε → Prop} {x : Except ε α} {f : α → Except ε β} {e : ε}

theorem avoids_iff : Avoids T x ↔ ¬ Fails T x :=
  ⟨fun h ⟨e, he, hT⟩ => h e he hT, fun h e he hT => h ⟨e, he, hT⟩⟩

theorem Avoids.of_ok {a : α} (h : x = .ok a) : Avoids T x := fun e he => by
  rw [h] at he
  cases he

theorem Avoids.bind (hx : Avoids T x) (hf : ∀ a, x = .ok a → Avoids T (f a)) :
    Avoids T (x >>= f) := by
  intro e he
  rcases bind_eq_error.mp he with hfirst | ⟨a, ha, hlater⟩
  · exact hx e hfirst
  · exact hf a ha e hlater

theorem Avoids.pass {a : α} (hx : x = .ok a) (hf : Avoids T (f a)) : Avoids T (x >>= f) := by
  rw [hx]
  exact hf

/-- A check with another failure. -/
theorem Avoids.check {c : Prop} [Decidable c] {f : Unit → Except ε β} (he : ¬ T e)
    (hf : Avoids T (f ())) : Avoids T (rejectIf c e >>= f) :=
  .bind (fun _ h => (rejectIf_eq_error.mp h).2 ▸ he) fun _ _ => hf

theorem Avoids.reject {c : Prop} [Decidable c] (he : ¬ T e) : Avoids T (rejectIf c e) :=
  fun _ h => (rejectIf_eq_error.mp h).2 ▸ he

/-- The same, where the rest relies on the check. -/
theorem Avoids.checked {c : Prop} [Decidable c] {f : Unit → Except ε β} (he : ¬ T e)
    (hf : ¬ c → Avoids T (f ())) : Avoids T (rejectIf c e >>= f) :=
  .bind (.reject he) fun _ hok => hf (rejectIf_eq_ok.mp hok)

theorem Avoids.okOr {o : Option α} (he : ¬ T e) : Avoids T (okOr o e) :=
  fun _ h => (okOr_eq_error.mp h).2 ▸ he

theorem Avoids.found {o : Option α} (he : ¬ T e) (hf : ∀ a, o = some a → Avoids T (f a)) :
    Avoids T (Checked.okOr o e >>= f) :=
  .bind (.okOr he) fun a ha => hf a (okOr_eq_ok.mp ha)

theorem Avoids.branch {c : Prop} [Decidable c] {y : Except ε α} (hx : Avoids T x)
    (hy : Avoids T y) : Avoids T (if c then x else y) := by
  split
  next => exact hx
  next => exact hy

/-- A loop avoids what its steps avoid, while `I` holds of the state and the rest of the list. -/
theorem Avoids.each {step : σ → α → Except ε σ} {I : σ → List α → Prop}
    (hstep : ∀ s a rest, I s (a :: rest) → Avoids T (step s a))
    (hkeep : ∀ s a rest t, I s (a :: rest) → step s a = .ok t → I t rest) :
    ∀ (xs : List α) (s : σ), I s xs → Avoids T (Checked.each step s xs) := by
  intro xs
  induction xs with
  | nil =>
      intro s _
      exact .of_ok rfl
  | cons a rest ih =>
      intro s hs
      exact .bind (hstep s a rest hs) fun t ht => ih t (hkeep s a rest t hs ht)

/-- A loop whose steps always avoid the failures. -/
theorem Avoids.loop {step : σ → α → Except ε σ} (h : ∀ s a, Avoids T (step s a)) (xs : List α)
    (s : σ) : Avoids T (Checked.each step s xs) :=
  .each (I := fun _ _ => True) (fun s a _ _ => h s a) (fun _ _ _ _ _ _ => trivial) xs s trivial

/-- Neither the gate nor what remains is such a failure. -/
theorem Gated.avoids {p : Prop} {K : ε → Prop} (h : Gated p e T x) (he : ¬ K e)
    (hT : ∀ e', T e' → ¬ K e') : Avoids K x := by
  intro e' he'
  by_cases hp : p
  · exact hT e' (h.remains hp e' he')
  · exact Except.error.inj ((h.fails hp).symm.trans he') ▸ he

/-- If what remains cannot occur, the computation goes through exactly under its gate. -/
theorem Gated.goes_iff {p : Prop} (h : Gated p e T x) (havoids : Avoids T x) :
    (∃ a, x = .ok a) ↔ p := by
  constructor
  · rintro ⟨a, ha⟩
    refine Classical.byContradiction fun hp => ?_
    cases ha.symm.trans (h.fails hp)
  · intro hp
    cases hx : x with
    | error e' => exact absurd (h.remains hp e' hx) (havoids e' hx)
    | ok a => exact ⟨a, rfl⟩

end Avoids

/-! ## What a computation keeps -/

/-- A successful `x` ends with the part `p` as it is in `s`. -/
def Keeps (p : σ → β) (s : σ) (x : Except ε σ) : Prop := ∀ t, x = .ok t → p t = p s

section Keeps

variable {p : σ → β} {s t : σ}

theorem Keeps.done (h : p t = p s) : Keeps p s (pure t : Except ε σ) := by
  intro u hu
  rwa [← pure_eq_ok.mp hu]

theorem Keeps.check {x : Except ε α} {f : α → Except ε σ} (h : ∀ a, Keeps p s (f a)) :
    Keeps p s (x >>= f) := by
  intro u hu
  obtain ⟨a, -, ha⟩ := bind_eq_ok.mp hu
  exact h a u ha

theorem Keeps.next {x : Except ε σ} {f : σ → Except ε σ} (hx : Keeps p s x)
    (h : ∀ t, Keeps p t (f t)) : Keeps p s (x >>= f) := by
  intro u hu
  obtain ⟨a, ha, hrest⟩ := bind_eq_ok.mp hu
  exact (h a u hrest).trans (hx a ha)

theorem Keeps.of_eq {x : Except ε σ} (hx : Keeps p t x) (h : p t = p s) : Keeps p s x := by
  intro u hu
  exact (hx u hu).trans h

theorem Keeps.branch {q : Prop} [Decidable q] {x y : Except ε σ} (hx : Keeps p s x)
    (hy : Keeps p s y) : Keeps p s (if q then x else y) := by
  split
  next => exact hx
  next => exact hy

end Keeps

/-! ## Computations that differ in what they carry along -/

/-- `y` does what `x` does, on states changed by `g`. -/
def Mirrors {τ : Type} (g : σ → τ) (x : Except ε σ) (y : Except ε τ) : Prop := y = x.map g

section Mirrors

variable {τ : Type} {g : σ → τ} {x : Except ε σ} {y : Except ε τ}

theorem Mirrors.eq_ok (h : Mirrors g x y) {u : τ} : y = .ok u ↔ ∃ t, x = .ok t ∧ u = g t := by
  rw [h]
  cases x with
  | error e => simp [Except.map]
  | ok t => simp [Except.map, eq_comm]

theorem Mirrors.done {t : σ} {u : τ} (h : u = g t) :
    Mirrors g (pure t : Except ε σ) (pure u : Except ε τ) := by
  rw [h]
  rfl

theorem Mirrors.check {z : Except ε α} {f : α → Except ε σ} {f' : α → Except ε τ}
    (h : ∀ a, Mirrors g (f a) (f' a)) : Mirrors g (z >>= f) (z >>= f') := by
  cases z with
  | error e => rfl
  | ok a => exact h a

theorem Mirrors.next {f : σ → Except ε σ} {f' : τ → Except ε τ} (hx : Mirrors g x y)
    (h : ∀ t, Mirrors g (f t) (f' (g t))) : Mirrors g (x >>= f) (y >>= f') := by
  rw [hx]
  cases x with
  | error e => rfl
  | ok t => exact h t

theorem Mirrors.branch {q : Prop} [Decidable q] {x' : Except ε σ} {y' : Except ε τ}
    (h : Mirrors g x y) (h' : Mirrors g x' y') :
    Mirrors g (if q then x else x') (if q then y else y') := by
  split
  next => exact h
  next => exact h'

end Mirrors

end Checked
