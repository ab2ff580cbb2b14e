import Mathlib.Logic.Basic

/-! # Runs of a labelled system and the rules that follow them

A run is recorded as the list of its labels, newest first. `drift` is a move of
the surroundings that leaves no label. An invariant may speak about the whole
history, and a guarded rule assumes a condition on every label of the run.
-/

namespace Trace

structure System (σ ε : Type) where
  Start : ε → σ → Prop
  Step : σ → ε → σ → Prop
  Drift : σ → σ → Prop

variable {σ ε : Type} {M : System σ ε}

inductive Run (M : System σ ε) : List ε → σ → Prop
  | start {e : ε} {s : σ} (h : M.Start e s) : Run M [e] s
  | step {tr : List ε} {s s' : σ} {e : ε} (run : Run M tr s) (h : M.Step s e s') :
      Run M (e :: tr) s'
  | drift {tr : List ε} {s s' : σ} (run : Run M tr s) (h : M.Drift s s') : Run M tr s'

/-- A state some run ends in. -/
def Reachable (M : System σ ε) (s : σ) : Prop := ∃ tr, Run M tr s

/-- The step rule under a condition `C` on every label: the invariant may use
the run, the earlier labels and the condition on the present label. -/
theorem Run.guarded {C : ε → Prop} {I : List ε → σ → Prop}
    (start : ∀ e s, M.Start e s → C e → I [e] s)
    (step : ∀ tr s e s', Run M tr s → (∀ x ∈ tr, C x) → I tr s → C e → M.Step s e s' →
      I (e :: tr) s')
    (drift : ∀ tr s s', I tr s → M.Drift s s' → I tr s')
    {tr : List ε} {s : σ} (run : Run M tr s) (hC : ∀ x ∈ tr, C x) : I tr s := by
  induction run with
  | start h => exact start _ _ h (hC _ List.mem_cons_self)
  | step run h ih =>
      have earlier := fun x hx => hC x (List.mem_cons_of_mem _ hx)
      exact step _ _ _ _ run earlier (ih earlier) (hC _ List.mem_cons_self) h
  | drift _ h ih => exact drift _ _ _ (ih hC) h

theorem Run.invariant {I : List ε → σ → Prop}
    (start : ∀ e s, M.Start e s → I [e] s)
    (step : ∀ tr s e s', Run M tr s → I tr s → M.Step s e s' → I (e :: tr) s')
    (drift : ∀ tr s s', I tr s → M.Drift s s' → I tr s')
    {tr : List ε} {s : σ} (run : Run M tr s) : I tr s :=
  run.guarded (C := fun _ => True) (fun e s h _ => start e s h)
    (fun tr s e s' run _ hI _ h => step tr s e s' run hI h) drift (fun _ _ => trivial)

theorem forall_split_cons {P : ε → List ε → Prop} {e : ε} {tr : List ε} :
    (∀ later x earlier, e :: tr = later ++ x :: earlier → P x earlier) ↔
      P e tr ∧ ∀ later x earlier, tr = later ++ x :: earlier → P x earlier := by
  constructor
  · intro h
    exact ⟨h [] e tr rfl, fun later x earlier heq => h (e :: later) x earlier (by rw [heq]; rfl)⟩
  · rintro ⟨hhead, htail⟩ later x earlier heq
    cases later with
    | nil =>
        rw [List.nil_append, List.cons.injEq] at heq
        obtain ⟨rfl, rfl⟩ := heq
        exact hhead
    | cons y rest =>
        rw [List.cons_append, List.cons.injEq] at heq
        exact htail rest x earlier heq.2

theorem forall_split_iff {P : ε → Prop} {tr : List ε} :
    (∀ later e earlier, tr = later ++ e :: earlier → P e) ↔ ∀ e ∈ tr, P e := by
  constructor
  · intro h e he
    obtain ⟨later, earlier, heq⟩ := List.append_of_mem he
    exact h later e earlier heq
  · rintro h later e earlier rfl
    exact h e (List.mem_append_right _ List.mem_cons_self)

/-- Every label meets `C` exactly when `P` holds right after every label, if this is so of
a label whose predecessors all meet `C`. -/
theorem Run.exactly {C : ε → Prop} {P : ε → List ε → Prop}
    (start : ∀ e s, M.Start e s → (P e [] ↔ C e))
    (step : ∀ tr s e s', Run M tr s → (∀ x ∈ tr, C x) → M.Step s e s' → (P e tr ↔ C e))
    {tr : List ε} {s : σ} (run : Run M tr s) :
    (∀ later e earlier, tr = later ++ e :: earlier → P e earlier) ↔ ∀ e ∈ tr, C e := by
  induction run with
  | start h =>
      rw [forall_split_cons, List.forall_mem_cons, start _ _ h]
      simp
  | step run h ih =>
      rw [forall_split_cons, List.forall_mem_cons, ih]
      exact and_congr_left fun hearlier => step _ _ _ _ run hearlier h
  | drift _ _ ih => exact ih

/-- An `event` happened, and every later label is one that `keeps`. -/
inductive Since (keeps event : ε → Prop) : List ε → Prop
  | now {e : ε} {tr : List ε} (h : event e) : Since keeps event (e :: tr)
  | later {e : ε} {tr : List ε} (hkeeps : keeps e) (h : Since keeps event tr) :
      Since keeps event (e :: tr)

theorem since_cons {keeps event : ε → Prop} {e : ε} {tr : List ε} :
    Since keeps event (e :: tr) ↔ event e ∨ keeps e ∧ Since keeps event tr := by
  constructor
  · rintro (h | ⟨hkeeps, h⟩)
    · exact .inl h
    · exact .inr ⟨hkeeps, h⟩
  · rintro (h | ⟨hkeeps, h⟩)
    · exact .now h
    · exact .later hkeeps h

instance decidableSince {keeps event : ε → Prop} [DecidablePred keeps] [DecidablePred event] :
    (tr : List ε) → Decidable (Since keeps event tr)
  | [] => .isFalse nofun
  | _ :: tr =>
      have : Decidable (Since keeps event tr) := decidableSince tr
      decidable_of_iff _ since_cons.symm

theorem since_iff {keeps event : ε → Prop} {tr : List ε} : Since keeps event tr ↔
    ∃ later e earlier, tr = later ++ e :: earlier ∧ event e ∧ ∀ x ∈ later, keeps x := by
  constructor
  · intro h
    induction h with
    | now h => exact ⟨[], _, _, rfl, h, fun _ hx => nomatch hx⟩
    | later hkeeps _ ih =>
        obtain ⟨later, e, earlier, rfl, hevent, hlater⟩ := ih
        exact ⟨_ :: later, e, earlier, rfl, hevent, List.forall_mem_cons.mpr ⟨hkeeps, hlater⟩⟩
  · rintro ⟨later, e, earlier, rfl, hevent, hlater⟩
    induction later with
    | nil => exact .now hevent
    | cons x rest ih =>
        obtain ⟨hx, hrest⟩ := List.forall_mem_cons.mp hlater
        exact .later hx (ih hrest)

/-- Cutting the newest labels off a run leaves a run. -/
theorem Run.earlier {tr : List ε} {s : σ} (run : Run M tr s) :
    ∀ later e earlier, tr = later ++ e :: earlier → ∃ t, Run M (e :: earlier) t := by
  induction run with
  | start h =>
      intro later e earlier heq
      cases later with
      | nil => exact ⟨_, by rw [List.nil_append] at heq; rw [← heq]; exact .start h⟩
      | cons x rest => simp at heq
  | step run h ih =>
      intro later e earlier heq
      cases later with
      | nil => exact ⟨_, by rw [List.nil_append] at heq; rw [← heq]; exact .step run h⟩
      | cons x rest =>
          rw [List.cons_append, List.cons.injEq] at heq
          exact ih rest e earlier heq.2
  | drift _ _ ih => exact ih

/-- The newest label is that of the start or of a step. -/
theorem Run.last {e : ε} {earlier : List ε} {s : σ} (run : Run M (e :: earlier) s) :
    (earlier = [] ∧ ∃ t, M.Start e t) ∨ ∃ t t', Run M earlier t ∧ M.Step t e t' := by
  generalize htr : e :: earlier = tr at run
  induction run with
  | start h =>
      rw [List.cons.injEq] at htr
      exact .inl ⟨htr.2, _, htr.1 ▸ h⟩
  | step run h =>
      rw [List.cons.injEq] at htr
      obtain ⟨rfl, rfl⟩ := htr
      exact .inr ⟨_, _, run, h⟩
  | drift _ _ ih => exact ih htr

/-- What can follow a state, newest label first. -/
inductive Onward (M : System σ ε) (s : σ) : List ε → σ → Prop
  | here : Onward M s [] s
  | step {tr : List ε} {t t' : σ} {e : ε} (onward : Onward M s tr t) (h : M.Step t e t') :
      Onward M s (e :: tr) t'
  | drift {tr : List ε} {t t' : σ} (onward : Onward M s tr t) (h : M.Drift t t') :
      Onward M s tr t'

theorem Run.append {earlier later : List ε} {s t : σ} (run : Run M earlier s)
    (onward : Onward M s later t) : Run M (later ++ earlier) t := by
  induction onward with
  | here => exact run
  | step _ h ih => exact .step ih h
  | drift _ h ih => exact .drift ih h

/-- What holds in one state of a run and is kept under `C` holds in what follows. -/
theorem Run.onward {C : ε → Prop} {I : σ → Prop} {earlier later : List ε} {s t : σ}
    (run : Run M earlier s) (now : I s)
    (step : ∀ tr t e t', Run M tr t → I t → C e → M.Step t e t' → I t')
    (drift : ∀ t t', I t → M.Drift t t' → I t')
    (onward : Onward M s later t) (hC : ∀ e ∈ later, C e) : I t := by
  induction onward with
  | here => exact now
  | step before h ih =>
      obtain ⟨hhead, hrest⟩ := List.forall_mem_cons.mp hC
      exact step _ _ _ _ (run.append before) (ih hrest) hhead h
  | drift _ h ih => exact drift _ _ (ih hC) h

end Trace
