import WitnessLedger.Chain.Proposal

/-!
# Operations that succeed

What the success of an operation says about its steps: each of them has succeeded, and the checks
on the way have passed.
-/

namespace WitnessLedger

variable {ε ε' α β γ : Type}

/-- A sequence succeeds when both of its parts do. -/
theorem bind_eq_ok_iff {x : Except ε α} {f : α → Except ε β} {b : β} :
    x >>= f = .ok b ↔ ∃ a, x = .ok a ∧ f a = .ok b := by
  cases x <;> simp [Bind.bind, Except.bind]

theorem pure_eq_ok_iff {a b : α} : (pure a : Except ε α) = .ok b ↔ a = b := by
  simp [pure, Except.pure]

theorem exists_eq_ok_of_isOk {x : Except ε α} (h : x.isOk = true) : ∃ a, x = .ok a := by
  cases x with
  | error e => cases h
  | ok a => exact ⟨a, rfl⟩

theorem map_map (x : Except ε α) (f : α → β) (g : β → γ) :
    (x.map f).map g = x.map fun a => g (f a) := by
  cases x <;> rfl

theorem mapError_eq_ok_iff {x : Except ε α} {f : ε → ε'} {a : α} :
    x.mapError f = .ok a ↔ x = .ok a := by
  cases x with
  | ok b =>
    constructor
    · exact fun h => congrArg Except.ok (Except.ok.inj h)
    · exact fun h => congrArg Except.ok (Except.ok.inj h)
  | error e => exact ⟨nofun, nofun⟩

namespace Content

theorem ofPayload_eq_ok_iff {p : Payload} {content : Content} :
    ofPayload p = .ok content ↔ p.validate = .ok () ∧ content = plain p := by
  unfold ofPayload
  simp only [bind_eq_ok_iff, pure_eq_ok_iff]
  constructor
  · rintro ⟨_, hvalid, rfl⟩
    exact ⟨hvalid, rfl⟩
  · rintro ⟨hvalid, rfl⟩
    exact ⟨(), hvalid, rfl⟩

/-- Content without a score is admitted where its payload is valid. -/
theorem admit_plain {p : Payload} (h : p.validate = .ok ()) :
    Content.admit (plain p) p.kind = .ok () := by
  have hkind : (plain p).kind = p.kind := rfl
  have hvalid : (plain p).validate = .ok () := by
    simp only [validate, plain, h]
    rfl
  unfold Content.admit
  rw [if_pos hkind, hvalid]
  rfl

/-- Content is only admitted for its own kind. -/
theorem kind_eq_of_admit {content : Content} {kind : EntryKind}
    (h : content.admit kind = .ok ()) : content.kind = kind := by
  unfold Content.admit at h
  split at h
  · assumption
  · cases h

end Content

theorem Chain.propose_eq_ok_iff {c c' : Chain} {now : Instant} {suffix : String}
    {kind : EntryKind} {content : Content} {level : Level} {e : Entry} :
    c.propose now suffix kind content level = .ok (e, c') ↔
      content.admit kind = .ok () ∧ e = c.draft now suffix kind content level ∧ c' = c.push e := by
  unfold propose
  simp only [bind_eq_ok_iff, pure_eq_ok_iff, Prod.mk.injEq]
  constructor
  · rintro ⟨_, hvalid, rfl, rfl⟩
    exact ⟨hvalid, rfl, rfl⟩
  · rintro ⟨hvalid, rfl, rfl⟩
    exact ⟨(), hvalid, rfl, rfl⟩

theorem Chain.propose_of_admit {c : Chain} {kind : EntryKind} {content : Content} (now : Instant)
    (suffix : String) (level : Level) (h : content.admit kind = .ok ()) :
    c.propose now suffix kind content level =
      .ok (c.draft now suffix kind content level,
        c.push (c.draft now suffix kind content level)) :=
  propose_eq_ok_iff.2 ⟨h, rfl, rfl⟩

end WitnessLedger
