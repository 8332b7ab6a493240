import Mathlib.Data.List.Induction

/-!
# Runs

A run applies one action after another to a state.  What is noted of each action in the state
that it meets, put one after the other, is the chronicle of the run; a history such as "all ids
that were made" is the chronicle of a note.

## Key results

- `chronicle_concat`: one more action adds its note at the end
- `chronicle_append`: a run in two parts has the chronicles of its parts
- `mem_chronicle`: what a chronicle holds was noted of some action
- `foldl_chronicle`, `chronicle_chronicle`: a run whose actions are done by actions of a smaller
  machine is a run of that machine
- `induction_of_nodup`: what each action with new marks keeps holds after every run whose marks
  are pairwise distinct
-/

namespace WitnessLedger.Run

variable {σ α β ε : Type}

/-- The state after an operation; one that fails leaves the state as it was. -/
def stateAfter (s : σ) : Except ε (β × σ) → σ
  | .ok (_, s') => s'
  | .error _ => s

@[simp] theorem stateAfter_ok (s s' : σ) (x : β) :
    stateAfter s (.ok (x, s') : Except ε (β × σ)) = s' := rfl

@[simp] theorem stateAfter_error (s : σ) (e : ε) :
    stateAfter s (.error e : Except ε (β × σ)) = s := rfl

/-- What is noted of each action in the state that it meets, in order. -/
def chronicle (act : σ → α → σ) (note : σ → α → List β) : σ → List α → List β
  | _, [] => []
  | s, a :: as => note s a ++ chronicle act note (act s a) as

variable {act : σ → α → σ} {note : σ → α → List β}

theorem chronicle_append (s : σ) (as bs : List α) :
    chronicle act note s (as ++ bs) =
      chronicle act note s as ++ chronicle act note (as.foldl act s) bs := by
  induction as generalizing s with
  | nil => rfl
  | cons a as ih => simp only [List.cons_append, chronicle, ih, List.append_assoc, List.foldl_cons]

@[simp] theorem chronicle_concat (s : σ) (as : List α) (a : α) :
    chronicle act note s (as ++ [a]) = chronicle act note s as ++ note (as.foldl act s) a := by
  rw [chronicle_append, chronicle, chronicle, List.append_nil]

/-- Actions of which nothing is noted in any state add nothing. -/
theorem chronicle_append_of_silent {bs : List α} (h : ∀ s, ∀ b ∈ bs, note s b = []) (s : σ)
    (as : List α) : chronicle act note s (as ++ bs) = chronicle act note s as := by
  have hsilent : ∀ s, chronicle act note s bs = [] := by
    induction bs with
    | nil => exact fun _ => rfl
    | cons b bs ih =>
      intro s
      rw [chronicle, h s b (List.mem_cons_self ..),
        ih (fun s x hx => h s x (List.mem_cons_of_mem _ hx)), List.append_nil]
  rw [chronicle_append, hsilent, List.append_nil]

/-- What a chronicle holds was noted of some action, in the state that the actions before it lead
    to. -/
theorem mem_chronicle {s : σ} {as : List α} {x : β} :
    x ∈ chronicle act note s as ↔
      ∃ before a after, as = before ++ a :: after ∧ x ∈ note (before.foldl act s) a := by
  constructor
  · intro hx
    induction as generalizing s with
    | nil => cases hx
    | cons a as ih =>
      rcases List.mem_append.1 hx with hx | hx
      · exact ⟨[], a, as, rfl, hx⟩
      · obtain ⟨before, b, after, rfl, hb⟩ := ih hx
        exact ⟨a :: before, b, after, rfl, hb⟩
  · rintro ⟨before, a, after, rfl, hx⟩
    rw [chronicle_append]
    exact List.mem_append_right _ (List.mem_append_left _ hx)

section Lower

variable {τ γ : Type} {inner : τ → γ → τ} {view : σ → τ} {lower : σ → α → List γ}

/-- Where each action is seen in a part of the state as actions of that part, a run is seen as the
    run of all of these. -/
theorem foldl_chronicle (h : ∀ s a, view (act s a) = (lower s a).foldl inner (view s)) (s : σ)
    (as : List α) :
    view (as.foldl act s) = (chronicle act lower s as).foldl inner (view s) := by
  induction as generalizing s with
  | nil => rfl
  | cons a as ih => rw [List.foldl_cons, ih, h, chronicle, List.foldl_append]

/-- What is noted of those actions can be noted of the actions that they do. -/
theorem chronicle_chronicle (h : ∀ s a, view (act s a) = (lower s a).foldl inner (view s))
    (innerNote : τ → γ → List β) (s : σ) (as : List α) :
    chronicle inner innerNote (view s) (chronicle act lower s as) =
      chronicle act (fun s a => chronicle inner innerNote (view s) (lower s a)) s as := by
  induction as generalizing s with
  | nil => rfl
  | cons a as ih =>
    rw [chronicle, chronicle_append, ← h, ih]
    rfl

end Lower

/-- What holds at the start of a run, and is kept by each action whose marks have not been used
    before, holds after every run whose marks are pairwise distinct. -/
theorem induction_of_nodup {P : List α → Prop} (s : σ) (nil : P [])
    (concat : ∀ as a, (chronicle act note s as).Nodup →
      (∀ x ∈ note (as.foldl act s) a, x ∉ chronicle act note s as) → P as → P (as ++ [a]))
    (as : List α) (h : (chronicle act note s as).Nodup) : P as := by
  induction as using List.reverseRecOn with
  | nil => exact nil
  | append_singleton as a ih =>
    rw [chronicle_concat, List.nodup_append] at h
    obtain ⟨hold, -, hnew⟩ := h
    exact concat as a hold (fun x hx hx' => hnew x hx' x hx rfl) (ih hold)

end WitnessLedger.Run
