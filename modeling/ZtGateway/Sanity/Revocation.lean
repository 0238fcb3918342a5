import ZtGateway.Spec.Revocation
import ZtGateway.Spec.Stages

/-! The blacklist seen through its readers: eviction is invisible, and a revoke is
either refused, with nothing changed, or sets one expiry. -/

namespace ZTG

open Act

namespace RevocationState

variable {st : RevocationState} {jti : String} {t : ℕ}

/-- the answer of `isRevoked` at a later time -/
def revokedAt (st : RevocationState) (jti : String) (t : ℕ) : Bool :=
  ({ st with now := t }.isRevoked jti).1

/-- the entry an ownership check sees -/
def liveEntry (st : RevocationState) (jti : String) : Option RevocationEntry := (st.getEntry jti).1

theorem revokedAt_iff :
    st.revokedAt jti t = true ↔ ∃ entry, st.blacklist jti = some entry ∧
      (t : ℚ) < entry.expiresAt := by
  unfold revokedAt isRevoked
  cases h : st.blacklist jti with
  | none => simp
  | some entry =>
    by_cases hle : entry.expiresAt ≤ (t : ℚ)
    · simp [hle, not_lt.mpr hle]
    · simp [hle, not_le.mp hle]

theorem liveEntry_iff {entry : RevocationEntry} :
    st.liveEntry jti = some entry ↔ st.blacklist jti = some entry ∧
      (st.now : ℚ) < entry.expiresAt := by
  unfold liveEntry getEntry
  cases h : st.blacklist jti with
  | none => simp
  | some x =>
    by_cases hle : x.expiresAt ≤ (st.now : ℚ)
    · simp only [hle, ↓reduceIte, Option.some.injEq, reduceCtorEq, false_iff, not_and, not_lt]
      rintro rfl
      exact hle
    · simp only [hle, ↓reduceIte, Option.some.injEq]
      refine ⟨?_, fun hx => hx.1⟩
      rintro rfl
      exact ⟨rfl, not_le.mp hle⟩

theorem revokedAt_iff_live (ht : st.now ≤ t) :
    st.revokedAt jti t = true ↔ ∃ entry, st.liveEntry jti = some entry ∧
      (t : ℚ) < entry.expiresAt := by
  rw [revokedAt_iff]
  constructor
  · rintro ⟨entry, he, hlt⟩
    have : (st.now : ℚ) ≤ t := by exact_mod_cast ht
    exact ⟨entry, liveEntry_iff.mpr ⟨he, this.trans_lt hlt⟩, hlt⟩
  · rintro ⟨entry, he, hlt⟩
    exact ⟨entry, (liveEntry_iff.mp he).1, hlt⟩

/-- `st'` is `st` with expired entries dropped. -/
structure Evicted (st st' : RevocationState) : Prop where
  now : st'.now = st.now
  kept : ∀ jti, st'.blacklist jti = st.blacklist jti ∨
    st'.blacklist jti = none ∧ ∃ entry, st.blacklist jti = some entry ∧
      entry.expiresAt ≤ (st.now : ℚ)

theorem Evicted.refl (st : RevocationState) : Evicted st st := ⟨rfl, fun _ => .inl rfl⟩

private theorem delete_evicted {entry : RevocationEntry} (h : st.blacklist jti = some entry)
    (hle : entry.expiresAt ≤ (st.now : ℚ)) : Evicted st (st.delete jti) := by
  refine ⟨rfl, fun j => ?_⟩
  by_cases hj : j = jti
  · subst hj
    exact .inr ⟨by simp [delete], entry, h, hle⟩
  · exact .inl (by simp [delete, Function.update_of_ne hj])

theorem isRevoked_evicted : Evicted st (st.isRevoked jti).2 := by
  unfold isRevoked
  cases h : st.blacklist jti with
  | none => exact .refl st
  | some entry =>
    by_cases hle : entry.expiresAt ≤ (st.now : ℚ)
    · simpa [hle] using delete_evicted h hle
    · simpa [hle] using Evicted.refl st

theorem getEntry_evicted : Evicted st (st.getEntry jti).2 := by
  unfold getEntry
  cases h : st.blacklist jti with
  | none => exact .refl st
  | some entry =>
    by_cases hle : entry.expiresAt ≤ (st.now : ℚ)
    · simpa [hle] using delete_evicted h hle
    · simpa [hle] using Evicted.refl st

theorem Evicted.revokedAt {st' : RevocationState} (h : Evicted st st') (ht : st.now ≤ t) :
    st'.revokedAt jti t = st.revokedAt jti t := by
  rw [Bool.eq_iff_iff, revokedAt_iff, revokedAt_iff]
  rcases h.kept jti with hk | ⟨hk, entry, he, hle⟩
  · rw [hk]
  · have : ¬ (t : ℚ) < entry.expiresAt := not_lt.mpr (hle.trans (by exact_mod_cast ht))
    simp [hk, he, this]

/-- The ownership check turns the call away. -/
def Refuses (st : RevocationState) (user : Option UserClaims) (dto : RevokeTokenDto) : Prop :=
  ∀ u, user = some u → u.isAdmin = false ∧
    ∃ entry, st.liveEntry dto.jti = some entry ∧ entry.userId ≠ u.userId

end RevocationState

open RevocationState

/-- A revoke is refused and only evicts, or is accepted and sets the entry. -/
theorem AuthController.revoke_cases (st : RevocationState) (user : Option UserClaims)
    (dto : RevokeTokenDto) :
    (st.Refuses user dto ∧ (∃ e, (AuthController.revoke st user dto).1 = .error e) ∧
      Evicted st (AuthController.revoke st user dto).2) ∨
    ∃ u st₁, user = some u ∧ ¬ st.Refuses user dto ∧ Evicted st st₁ ∧
      (AuthController.revoke st user dto).1 = .ok "Token revoked" ∧
      (AuthController.revoke st user dto).2.now = st.now ∧
      (AuthController.revoke st user dto).2.blacklist =
        Function.update st₁.blacklist dto.jti (some ⟨dto.expiresAtMs, u.userId⟩) := by
  cases user with
  | none => exact .inl ⟨fun u hu => by simp at hu, ⟨_, rfl⟩, .refl st⟩
  | some u =>
    unfold AuthController.revoke Refuses
    by_cases hadmin : u.isAdmin = true
    · refine .inr ⟨u, st, rfl, fun h => ?_, .refl st, ?_⟩
      · simp [hadmin] at h
      · simp [hadmin, RevocationState.revoke, put]
    · have hev := @getEntry_evicted st dto.jti
      have hlive : st.liveEntry dto.jti = (st.getEntry dto.jti).1 := rfl
      simp only [hadmin]
      rcases hg : st.getEntry dto.jti with ⟨_ | entry, st₁⟩
      · rw [hg] at hev hlive
        refine .inr ⟨u, st₁, rfl, by simp [hlive], hev, ?_⟩
        simpa [RevocationState.revoke, put] using hev.now
      · rw [hg] at hev hlive
        by_cases hu : entry.userId = u.userId
        · refine .inr ⟨u, st₁, rfl, by simp [hlive, hu], hev, ?_⟩
          simpa [RevocationState.revoke, put, hu] using hev.now
        · refine .inl ⟨?_, ?_, ?_⟩
          · intro v hv
            obtain rfl := Option.some.inj hv
            exact ⟨by simpa using hadmin, entry, hlive, hu⟩
          · simp [hu]
          · simpa [hu] using hev

end ZTG
