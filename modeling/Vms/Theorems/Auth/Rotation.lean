import Mathlib.Data.Set.Insert
import Vms.Lib.Interleave
import Vms.SystemSession

/-! Refresh tokens are replaced when they are used. A refresh finds the row of its token, and two statements later
    gives the row a new one, whatever the row then holds. Where it still holds the token of the refresh, the tokens
    are used once. -/

namespace Vms.RefreshTokens
open Relational HttpException

/-- What the statement leaves that replaces the token of a row. -/
def rotated (id value : String) (expiryDate : Date) (s : Db) : Db := ((rotateRefreshToken id value expiryDate).run s).2

/-- The row with the token of a refresh. -/
def renewed (value : String) (expiryDate : Date) (row : RefreshToken) : RefreshToken :=
  { row with token := value, expiryDate }

/-- `t` is `s` with the token of a row replaced. -/
structure Rotates (id value : String) (expiryDate : Date) (s t : Db) : Prop where
  stored : s.refreshToken.modify (·.id == id) (renewed value expiryDate) = some t.refreshToken
  rest : t = { s with refreshToken := t.refreshToken }

/-- The next statement of a request replaces the token of a row. -/
def AtRotation {α : Type} (p : Service α) (id : String) : Prop :=
  ∃ value expiryDate k f, p = .stmt (rotated id value expiryDate) k f

/-- A refresh that is about to replace the token of a row finds the token that it presents in it. -/
def Current {ι α : Type} (token : ι → Option String) (c : Threads ι Db HttpException α) (i : ι) : Prop :=
  ∀ presented, token i = some presented → ∀ id, AtRotation (c.threads i) id →
    ∃ row ∈ c.state.refreshToken, row.id = id ∧ row.token = presented

section Rotation
variable {id value : String} {expiryDate : Date} {s : Db}

/-- A store with one refresh token. -/
def probe (id value : String) (expiryDate : Date) : Db := { refreshToken := {{ id, token := value, expiryDate }} }

theorem rotated_probe {before : Date} : rotated id value expiryDate (probe id value before) = probe id value expiryDate := by
  have hfind : (probe id value before).refreshToken.find id = some { id, token := value, expiryDate := before } :=
    Table.find_singleton _
  have hmodify : (probe id value before).refreshToken.modify (·.id == id) (fun row => { row with token := value, expiryDate }) =
      some {{ id, token := value, expiryDate }} := Table.modify_singleton (beq_self_eq_true _)
  simp only [rotated, rotateRefreshToken, mutate, Prog.run_access, hfind, hmodify]
  rfl

theorem rotated_absent (h : s.refreshToken.find id = none) : rotated id value expiryDate s = s := by
  simp [rotated, rotateRefreshToken, mutate, Prog.run_access, h]

/-- Some store changes when the token of a row is replaced. -/
theorem rotated_probe_ne : rotated id value expiryDate (probe id value (expiryDate + 1)) ≠ probe id value (expiryDate + 1) := by
  rw [rotated_probe]
  intro h
  have hexpiry : [expiryDate] = [expiryDate + 1] :=
    congrArg (fun s : Db => s.refreshToken.rows.map RefreshToken.expiryDate) h
  exact absurd (List.cons.inj hexpiry).1 (Int.ne_of_lt (Int.lt_succ expiryDate))

/-- A statement that changes nothing replaces no token. -/
theorem not_atRotation {α : Type} {g : Db → Db} {k : Db → Service α} {f : Service α} (still : ∀ s, g s = s) :
    ¬AtRotation (.stmt g k f) id := by
  rintro ⟨value, expiryDate, _, _, heq⟩
  obtain ⟨rfl, -⟩ := Prog.stmt.inj heq
  exact rotated_probe_ne (still _)

/-- A statement replaces the token of one row. -/
theorem atRotation_rotated {α : Type} {k : Db → Service α} {f : Service α} {other : String}
    (h : AtRotation (.stmt (rotated id value expiryDate) k f) other) : other = id := by
  obtain ⟨value', expiryDate', _, _, heq⟩ := h
  have hsame := congrFun (Prog.stmt.inj heq).1 (probe id value (expiryDate + 1))
  by_contra hne
  have habsent : (probe id value (expiryDate + 1)).refreshToken.find other = none := by
    refine Option.eq_none_iff_forall_ne_some.mpr fun row hrow => hne ?_
    obtain ⟨hmem, hid⟩ := Table.find_eq_some.mp hrow
    obtain rfl := Table.mem_singleton.mp hmem
    exact hid.symm
  rw [rotated_absent habsent] at hsame
  exact rotated_probe_ne hsame

end Rotation

/-! ### Requests -/

/-- Requests at the same time: the tokens that they present and draw, how long these live, and the rows that they
    revoke. A row fits if a refresh with its token finds what else it asks for, so that its token can be redeemed; a
    reply grants the row of its token. Every state that the requests read is sound. -/
structure Requests (ι α : Type) where
  token : ι → Option String
  draws : ι → Option String
  expiryDate : ι → Date
  revokes : ι → RefreshToken → Prop
  fit : Db → RefreshToken → Prop
  redeems : Db → RefreshToken → Prop
  sound : Db → Prop
  grants : α → RefreshToken → Prop
  redeems_of_fit : ∀ s row, row ∈ s.refreshToken → fit s row → redeems s row
  /-- Only the account of the row counts. -/
  fit_renewed : ∀ s u row value expiryDate, fit s row → fit { s with refreshToken := u } (renewed value expiryDate row)
  fit_rotated : ∀ s u row, fit s row → fit { s with refreshToken := u } row
  sound_rotated : ∀ s u, sound s → sound { s with refreshToken := u }

namespace Requests
variable {ι α : Type} (R : Requests ι α) (i : ι)

/-- No token is drawn twice, or stored before. -/
structure Drawn (s : Db) : Prop where
  once : ∀ i j value, R.draws i = some value → R.draws j = some value → i = j
  fresh : ∀ i value, R.draws i = some value → ∀ row ∈ s.refreshToken, row.token ≠ value

/-- What a statement may do that is no rotation and stores no token. -/
structure Leaves (s t : Db) : Prop where
  old : ∀ row ∈ t.refreshToken, row ∈ s.refreshToken
  kept : ∀ row ∈ s.refreshToken, row ∈ t.refreshToken ∨ R.revokes i row
  fit : ∀ row, R.fit s row → R.fit t row
  sound : R.sound s → R.sound t

def Spares (g : Db → Db) : Prop := ∀ s, R.Leaves i s (g s)

/-- What a statement may do that stores the token of a login. -/
structure Stores (s t : Db) : Prop where
  old : ∀ row ∈ t.refreshToken, row ∈ s.refreshToken ∨ R.draws i = some row.token
  kept : ∀ row ∈ s.refreshToken, row ∈ t.refreshToken
  fit : ∀ row, R.fit s row → R.fit t row
  sound : R.sound s → R.sound t

/-- A request that stores its token once, if at all. -/
def Minting : Service α → Prop
  | .ret _ => True
  | .fail _ => True
  | .stmt g k f => Minting f ∧ ((R.Spares i g ∧ ∀ s, R.sound s → Minting (k s)) ∨
      (∀ s, R.Stores i s (g s)) ∧ ∀ s, (k s).AlwaysIn R.sound (R.Spares i))

/-- A refresh that has found its row, and what it asks for: it replaces the token and succeeds, or it fails. -/
def Rotating (row : RefreshToken) (value : String) : Service α → Prop
  | .stmt g k f => f.Doomed ∧ g = rotated row.id value (R.expiryDate i) ∧ ∀ s, (g s = s ∧ (k s).Doomed) ∨
      Rotates row.id value (R.expiryDate i) s (g s) ∧ ∃ a, R.grants a (renewed value (R.expiryDate i) row) ∧ k s = .ret a
  | _ => False

/-- A refresh that has found its row. -/
def Checking (row : RefreshToken) (value : String) : Service α → Prop :=
  Prog.Awaits fun s p => R.fit s row ∧ R.Rotating i row value p

/-- A refresh that has not started. -/
def Looking (token value : String) : Service α → Prop :=
  Prog.Awaits fun s p => ∃ row ∈ s.refreshToken, row.token = token ∧ R.Checking i row value p

/-! ### What has been used -/

/-- No row has the token, nor will one: whoever draws it has drawn it. -/
structure Gone (D : Set ι) (s : Db) (token : String) : Prop where
  drawn : ∀ j, R.draws j = some token → j ∈ D
  absent : ∀ row ∈ s.refreshToken, row.token ≠ token

/-- The row, if it is still stored, is the one with its token. -/
structure Knows (D : Set ι) (s : Db) (row : RefreshToken) : Prop where
  drawn : ∀ j, R.draws j = some row.token → j ∈ D
  same : ∀ r ∈ s.refreshToken, r.token = row.token → r = row

/-- A request that has not stored its token. -/
def Pending (D : Set ι) (s : Db) (p : Service α) : Prop :=
  (R.token i = none ∧ R.Minting i p) ∨ ∃ token value, R.token i = some token ∧ R.draws i = some value ∧
    (p.Doomed ∨ R.Looking i token value p ∨ ∃ row, row.token = token ∧ R.Knows D s row ∧
      (R.Checking i row value p ∨ R.fit s row ∧ R.Rotating i row value p))

/-- A request that has stored its token: a refresh has replied, and the token that it presented is gone. -/
def Done (D : Set ι) (s : Db) (p : Service α) : Prop :=
  (R.token i = none ∧ p.AlwaysIn R.sound (R.Spares i)) ∨ ∃ token a, R.token i = some token ∧ p = .ret a ∧ R.Gone D s token

/-- The tokens of the requests `D` have been stored, those of the others not. -/
structure Tracked (D : Set ι) (c : Threads ι Db HttpException α) : Prop where
  sound : R.sound c.state
  fresh : ∀ i ∉ D, ∀ value, R.draws i = some value → ∀ row ∈ c.state.refreshToken, row.token ≠ value
  pending : ∀ i ∉ D, R.Pending i D c.state (c.threads i)
  done : ∀ i ∈ D, R.Done i D c.state (c.threads i)
  unique : ∀ i ∈ D, ∀ j ∈ D, ∀ token, R.token i = some token → R.token j = some token → i = j

/-- What becomes of a row that is not revoked: it is stored, or a refresh has used its token. -/
def Fate (D : Set ι) (s : Db) (row : RefreshToken) : Prop :=
  (row ∈ s.refreshToken ∧ R.fit s row) ∨ ∃ j ∈ D, R.token j = some row.token

/-! ### What a statement of a request changes -/

/-- A statement of request `i`, after which the requests `D'` have stored their tokens. -/
structure Change (D D' : Set ι) (s t : Db) : Prop where
  grows : D ⊆ D'
  only : ∀ j ∈ D', j ∈ D ∨ j = i
  old : ∀ row ∈ t.refreshToken, row ∈ s.refreshToken ∨ (i ∉ D ∧ i ∈ D' ∧ R.draws i = some row.token)
  kept : ∀ row ∈ s.refreshToken, row ∈ t.refreshToken ∨ (i ∈ D' ∧ R.token i = some row.token) ∨ R.revokes i row
  fit : ∀ row, R.fit s row → R.fit t row
  sound : R.sound s → R.sound t

section Change
variable {R : Requests ι α} {i j : ι} {D D' : Set ι} {s t : Db} {row : RefreshToken} {token : String} {p : Service α}

theorem Change.refl : R.Change i D D s s :=
  ⟨subset_rfl, fun _ h => Or.inl h, fun _ h => Or.inl h, fun _ h => Or.inl h, fun _ h => h, fun h => h⟩

theorem Leaves.change (h : R.Leaves i s t) : R.Change i D D s t where
  grows := subset_rfl
  only _ hj := Or.inl hj
  old row hrow := Or.inl (h.old row hrow)
  kept row hrow := (h.kept row hrow).imp_right Or.inr
  fit := h.fit
  sound := h.sound

theorem Stores.change (h : R.Stores i s t) (hi : i ∉ D) : R.Change i D (insert i D) s t where
  grows := Set.subset_insert i D
  only _ hj := (Set.mem_insert_iff.mp hj).symm
  old row hrow := (h.old row hrow).imp_right fun hdraws => ⟨hi, Set.mem_insert i D, hdraws⟩
  kept row hrow := Or.inl (h.kept row hrow)
  fit := h.fit
  sound := h.sound

theorem Gone.changed (h : R.Gone D s token) (change : R.Change i D D' s t) : R.Gone D' t token where
  drawn j hj := change.grows (h.drawn j hj)
  absent row hrow htoken := by
    rcases change.old row hrow with hold | ⟨hi, -, hdraws⟩
    · exact h.absent row hold htoken
    · exact hi (h.drawn i (htoken ▸ hdraws))

theorem Knows.changed (h : R.Knows D s row) (change : R.Change i D D' s t) : R.Knows D' t row where
  drawn j hj := change.grows (h.drawn j hj)
  same r hr htoken := by
    rcases change.old r hr with hold | ⟨hi, -, hdraws⟩
    · exact h.same r hold htoken
    · exact absurd (h.drawn i (htoken ▸ hdraws)) hi

theorem Pending.changed (h : R.Pending j D s p) (change : R.Change i D D' s t) : R.Pending j D' t p := by
  rcases h with other | ⟨token, value, htoken, hdraws, hdoomed | looking | ⟨row, hrow, knows, hp⟩⟩
  · exact Or.inl other
  · exact Or.inr ⟨token, value, htoken, hdraws, Or.inl hdoomed⟩
  · exact Or.inr ⟨token, value, htoken, hdraws, Or.inr (Or.inl looking)⟩
  · refine Or.inr ⟨token, value, htoken, hdraws, Or.inr (Or.inr ⟨row, hrow, knows.changed change, ?_⟩)⟩
    exact hp.imp_right fun ⟨hfit, rotating⟩ => ⟨change.fit row hfit, rotating⟩

theorem Done.changed (h : R.Done j D s p) (change : R.Change i D D' s t) : R.Done j D' t p := by
  rcases h with other | ⟨token, a, htoken, hp, gone⟩
  · exact Or.inl other
  · exact Or.inr ⟨token, a, htoken, hp, gone.changed change⟩

/-- The request whose statement deletes a row that nobody has used revokes it. -/
theorem Fate.changed (h : R.Fate D s row) (change : R.Change i D D' s t) :
    R.Fate D' t row ∨ R.revokes i row ∧ row ∈ s.refreshToken ∧ row ∉ t.refreshToken := by
  rcases h with ⟨hrow, hfit⟩ | ⟨j, hj, htoken⟩
  · by_cases hkept : row ∈ t.refreshToken
    · exact Or.inl (Or.inl ⟨hkept, change.fit row hfit⟩)
    · rcases (change.kept row hrow).resolve_left hkept with ⟨hi, htoken⟩ | hrevokes
      · exact Or.inl (Or.inr ⟨i, hi, htoken⟩)
      · exact Or.inr ⟨hrevokes, hrow, hkept⟩
  · exact Or.inl (Or.inr ⟨j, change.grows hj, htoken⟩)

end Change

/-! ### One access -/

section Access
variable {R : Requests ι α} {i : ι} {D : Set ι} {s t : Db} {row : RefreshToken} {value : String} {p p' : Service α}
  {c : Threads ι Db HttpException α}

/-- The last access of a refresh replaces the token of its row, or nothing. -/
theorem Rotating.step (hp : R.Rotating i row value p) (h : Prog.Step p s p' t) : (p'.Doomed ∧ t = s) ∨
    AtRotation p row.id ∧ Rotates row.id value (R.expiryDate i) s t ∧
      ∃ a, R.grants a (renewed value (R.expiryDate i) row) ∧ p' = .ret a := by
  cases h with
  | fault => exact Or.inl ⟨hp.1, rfl⟩
  | @stmt g k f =>
    obtain ⟨-, rfl, shot⟩ := hp
    rcases shot s with ⟨hsame, hdoomed⟩ | ⟨rotates, a, grants, hret⟩
    · exact Or.inl ⟨hdoomed, hsame⟩
    · exact Or.inr ⟨⟨value, R.expiryDate i, k, f, rfl⟩, rotates, a, grants, hret⟩

theorem Minting.step (hp : R.Minting i p) (sound : R.sound s) (h : Prog.Step p s p' t) :
    (R.Minting i p' ∧ R.Leaves i s t) ∨ p'.AlwaysIn R.sound (R.Spares i) ∧ R.Stores i s t := by
  cases h with
  | fault => exact Or.inl ⟨hp.1, fun _ h => h, fun _ h => Or.inl h, fun _ h => h, fun h => h⟩
  | stmt =>
    rcases hp.2 with ⟨spares, hk⟩ | ⟨stores, hk⟩
    · exact Or.inl ⟨hk s sound, spares s⟩
    · exact Or.inr ⟨hk s, stores s⟩

/-- A statement that replaces the token of a row which still holds it. -/
theorem change_of_rotates (h : Rotates row.id value (R.expiryDate i) s t) (hrow : row ∈ s.refreshToken) (hi : i ∉ D)
    (htoken : R.token i = some row.token) (hdraws : R.draws i = some value) : R.Change i D (insert i D) s t where
  grows := Set.subset_insert i D
  only _ hj := (Set.mem_insert_iff.mp hj).symm
  old r hr := by
    obtain ⟨before, hbefore, rfl⟩ := (Table.mem_modify h.stored).mp hr
    split
    · exact Or.inr ⟨hi, Set.mem_insert i D, hdraws⟩
    · exact Or.inl hbefore
  kept r hr := by
    by_cases hid : (r.id == row.id) = true
    · obtain rfl : r = row := Table.eq_of_id hr hrow (beq_iff_eq.mp hid)
      exact Or.inr (Or.inl ⟨Set.mem_insert i D, htoken⟩)
    · exact Or.inl ((Table.mem_modify h.stored).mpr ⟨r, hr, if_neg hid⟩)
  fit r hfit := by
    rw [h.rest]
    exact R.fit_rotated s t.refreshToken r hfit
  sound hs := by
    rw [h.rest]
    exact R.sound_rotated s t.refreshToken hs

theorem gone_of_rotates (h : Rotates row.id value (R.expiryDate i) s t) (knows : R.Knows D s row) (fresh : row.token ≠ value) :
    R.Gone (insert i D) t row.token where
  drawn j hj := Set.mem_insert_of_mem i (knows.drawn j hj)
  absent r hr htoken := by
    obtain ⟨before, hbefore, rfl⟩ := (Table.mem_modify h.stored).mp hr
    by_cases hid : (before.id == row.id) = true
    · rw [if_pos hid] at htoken
      exact fresh htoken.symm
    · rw [if_neg hid] at htoken
      exact hid (knows.same before hbefore htoken ▸ beq_self_eq_true _)

/-- The request has stored its token: if it is a refresh, the token that it presents was there until then, and the row
    of the new one is there. -/
structure Stored (i : ι) (D : Set ι) (s t : Db) (p : Service α) : Prop where
  done : R.Done i D t p
  presented : ∀ token, R.token i = some token → ∃ row ∈ s.refreshToken, row.token = token
  granted : ∀ token, R.token i = some token → ∃ a row, p = .ret a ∧ row ∈ t.refreshToken ∧ R.fit t row ∧ R.grants a row ∧
    row.expiryDate = R.expiryDate i

/-- A refresh replies when it has stored its token. -/
theorem Pending.ne_ret (h : R.Pending i D s p) {token : String} {a : α} (htoken : R.token i = some token) : p ≠ .ret a := by
  rintro rfl
  rcases h with ⟨hnone, -⟩ | ⟨_, _, -, -, hdoomed | looking | ⟨_, -, -, checking | ⟨-, rotating⟩⟩⟩
  · rw [hnone] at htoken
    cases htoken
  · exact hdoomed
  · exact looking
  · exact checking
  · exact rotating

theorem Pending.step (h : R.Pending i D s p) (sound : R.sound s) (hi : i ∉ D)
    (fresh : ∀ j ∉ D, ∀ value, R.draws j = some value → ∀ row ∈ s.refreshToken, row.token ≠ value)
    (current : ∀ token, R.token i = some token → ∀ id, AtRotation p id → ∃ row ∈ s.refreshToken, row.id = id ∧ row.token = token)
    (hstep : Prog.Step p s p' t) : (R.Change i D D s t ∧ R.Pending i D t p') ∨
      R.Change i D (insert i D) s t ∧ R.Stored i (insert i D) s t p' := by
  rcases h with ⟨htoken, minting⟩ | ⟨token, value, htoken, hdraws, hp⟩
  · rcases minting.step sound hstep with ⟨hp', leaves⟩ | ⟨hp', stores⟩
    · exact Or.inl ⟨leaves.change, Or.inl ⟨htoken, hp'⟩⟩
    · refine Or.inr ⟨stores.change hi, Or.inl ⟨htoken, hp'⟩, ?_, ?_⟩ <;> simp [htoken]
  · have failed : ∀ {p' : Service α} {t : Db}, p'.Doomed → t = s → (R.Change i D D s t ∧ R.Pending i D t p') ∨
        R.Change i D (insert i D) s t ∧ R.Stored i (insert i D) s t p' := by
      rintro p' t hdoomed rfl
      exact Or.inl ⟨.refl, Or.inr ⟨token, value, htoken, hdraws, Or.inl hdoomed⟩⟩
    rcases hp with hdoomed | looking | ⟨row, rfl, knows, checking | ⟨hfit, rotating⟩⟩
    · obtain ⟨hp', hsame⟩ := hdoomed.step hstep
      exact failed hp' hsame
    · obtain ⟨hsame, hp' | ⟨row, hrow, rfl, checking⟩⟩ := looking.step hstep
      · exact failed hp' hsame
      · -- the row is stored, so whoever draws its token has done so
        subst hsame
        have knows : R.Knows D t row := by
          refine ⟨fun j hj => ?_, fun r hr htoken => Table.eq_of_clash hr hrow (beq_iff_eq.mpr htoken)⟩
          by_contra hundrawn
          exact fresh j hundrawn row.token hj row hrow rfl
        exact Or.inl ⟨.refl, Or.inr ⟨row.token, value, htoken, hdraws, Or.inr (Or.inr ⟨row, rfl, knows, Or.inl checking⟩)⟩⟩
    · obtain ⟨hsame, hp' | ready⟩ := checking.step hstep
      · exact failed hp' hsame
      · subst hsame
        exact Or.inl ⟨.refl, Or.inr ⟨row.token, value, htoken, hdraws, Or.inr (Or.inr ⟨row, rfl, knows, Or.inr ready⟩)⟩⟩
    · rcases rotating.step hstep with ⟨hp', hsame⟩ | ⟨hrotation, rotates, a, grants, rfl⟩
      · exact failed hp' hsame
      · obtain ⟨r, hr, -, hrtoken⟩ := current row.token htoken row.id hrotation
        obtain rfl : r = row := knows.same r hr hrtoken
        have gone := gone_of_rotates (i := i) rotates knows (fresh i hi value hdraws r hr)
        refine Or.inr ⟨change_of_rotates rotates hr hi htoken hdraws, Or.inr ⟨r.token, a, htoken, rfl, gone⟩, ?_, ?_⟩
        · rintro token htoken'
          obtain rfl := Option.some.inj (htoken.symm.trans htoken')
          exact ⟨r, hr, rfl⟩
        · intro _ _
          refine ⟨a, renewed value (R.expiryDate i) r, rfl, ?_, ?_, grants, rfl⟩
          · exact (Table.mem_modify rotates.stored).mpr ⟨r, hr, if_pos (beq_self_eq_true _)⟩
          · rw [rotates.rest]
            exact R.fit_renewed s t.refreshToken r value (R.expiryDate i) hfit

theorem Done.step (h : R.Done i D s p) (sound : R.sound s) (hstep : Prog.Step p s p' t) :
    R.Change i D D s t ∧ R.Done i D t p' := by
  rcases h with ⟨htoken, spares⟩ | ⟨token, a, -, rfl, -⟩
  · obtain ⟨hp', hsame | ⟨g, hg, hchange⟩⟩ := spares.step sound hstep
    · exact ⟨hsame ▸ .refl, Or.inl ⟨htoken, hp'⟩⟩
    · exact ⟨hchange ▸ (hg s).change, Or.inl ⟨htoken, hp'⟩⟩
  · cases hstep

theorem Tracked.ret {token : String} {a : α} (h : R.Tracked D c) (htoken : R.token i = some token) (hret : c.threads i = .ret a) :
    i ∈ D := by
  by_contra hi
  exact (h.pending i hi).ne_ret htoken hret

theorem Fate.kept {row : RefreshToken} (fate : R.Fate D c.state row) (h : R.Tracked D c) :
    (row ∈ c.state.refreshToken ∧ R.redeems c.state row) ∨ ∃ j b, R.token j = some row.token ∧ c.threads j = .ret b := by
  rcases fate with ⟨hrow, hfit⟩ | ⟨j, hj, htoken⟩
  · exact Or.inl ⟨hrow, R.redeems_of_fit c.state row hrow hfit⟩
  · rcases h.done j hj with ⟨hnone, -⟩ | ⟨_, b, -, hret, -⟩
    · rw [hnone] at htoken
      cases htoken
    · exact Or.inr ⟨j, b, htoken, hret⟩

end Access

/-! ### The statements of a refresh -/

section Statements
variable {β : Type} {R : Requests ι α} {i : ι} {row : RefreshToken} {value : String}

theorem awaits_query {f : Db → β} {h : β → Service α} {next : Db → Service α → Prop}
    (hh : ∀ s, (h (f s)).OrDoomed (next s)) : (query f >>= h).Awaits next := by
  refine Prog.awaits_access (fun _ => rfl) fun s b hb => ?_
  obtain rfl := Except.ok.inj hb
  exact hh s

/-- The statement that replaces the token of a row. -/
theorem rotates_or_fails (id value : String) (expiryDate : Date) (s : Db) :
    (rotateRefreshToken id value expiryDate).Returns (fun r t =>
      (t = s ∧ ∃ e, r = .error e) ∨ r = .ok () ∧ Rotates id value expiryDate s t) s := by
  rw [rotateRefreshToken, returns_mutate]
  refine ⟨fun e _ => Or.inl ⟨rfl, e, rfl⟩, fun a t h => Or.inr ?_⟩
  split at h
  · cases h
  · split at h
    · cases h
    · rename_i u hu
      obtain ⟨-, rfl⟩ := Prod.mk.inj (Except.ok.inj h)
      exact ⟨rfl, hu, rfl⟩

theorem rotation_bind {β : Type} {id : String} {expiryDate : Date} {h : Unit → Service β} :
    (rotateRefreshToken id value expiryDate >>= h) = .stmt (rotated id value expiryDate)
      (fun s => Prog.ofExcept ((rotateRefreshToken id value expiryDate).run s).1 >>= h) (.fail connectionLost) :=
  Prog.access_bind

theorem rotating_rotation {h : Unit → Service α} {a : α} (grants : R.grants a (renewed value (R.expiryDate i) row))
    (hret : h () = .ret a) : R.Rotating i row value (rotateRefreshToken row.id value (R.expiryDate i) >>= h) := by
  rw [rotation_bind]
  refine ⟨trivial, rfl, fun s => ?_⟩
  rcases rotates_or_fails row.id value (R.expiryDate i) s with ⟨hsame, e, hfails⟩ | ⟨hreturns, rotates⟩
  · refine Or.inl ⟨hsame, ?_⟩
    beta_reduce
    rw [hfails]
    trivial
  · refine Or.inr ⟨rotates, a, grants, ?_⟩
    beta_reduce
    rw [hreturns]
    exact hret

end Statements

/-! ### Runs -/

section Runs
variable [DecidableEq ι] {R : Requests ι α} {i : ι} {D D' : Set ι} {s₀ : Db} {ps : ι → Service α}
  {c d e : Threads ι Db HttpException α}

/-- A step of request `i`, after which the requests `D'` have stored their tokens. -/
structure Follows (R : Requests ι α) (i : ι) (D D' : Set ι) (c d : Threads ι Db HttpException α) : Prop where
  change : R.Change i D D' c.state d.state
  tracked : R.Tracked D' d
  granted : ∀ token a, R.token i = some token → d.threads i = .ret a → ∃ row ∈ d.state.refreshToken,
    R.fit d.state row ∧ R.grants a row ∧ row.expiryDate = R.expiryDate i

/-- What a statement of request `i` leaves, where it leaves a track of the request itself. -/
theorem Tracked.changed {t : Db} {p : Service α} (h : R.Tracked D c) (drawn : R.Drawn s₀) (change : R.Change i D D' c.state t)
    (pending : i ∉ D' → R.Pending i D' t p) (done : i ∈ D' → R.Done i D' t p)
    (alone : i ∈ D' → ∀ j ∈ D, ∀ token, R.token i = some token → R.token j = some token → j = i) :
    R.Tracked D' ⟨t, Function.update c.threads i p⟩ where
  sound := change.sound h.sound
  fresh j hj value hvalue row hrow heq := by
    rcases change.old row hrow with hold | ⟨-, hi, hdraws⟩
    · exact h.fresh j (fun hD => hj (change.grows hD)) value hvalue row hold heq
    · obtain rfl := drawn.once i j value (heq ▸ hdraws) hvalue
      exact hj hi
  pending := Threads.forall_update (P := fun j q => j ∉ D' → R.Pending j D' t q) pending fun j _ hj =>
    (h.pending j fun hD => hj (change.grows hD)).changed change
  done := Threads.forall_update (P := fun j q => j ∈ D' → R.Done j D' t q) done fun j hji hj =>
    (h.done j ((change.only j hj).resolve_right hji)).changed change
  unique j hj l hl token hjtoken hltoken := by
    rcases change.only j hj with hjD | rfl <;> rcases change.only l hl with hlD | rfl
    · exact h.unique j hjD l hlD token hjtoken hltoken
    · exact alone hl j hjD token hltoken hjtoken
    · exact (alone hj l hlD token hjtoken hltoken).symm
    · rfl

theorem Tracked.step (h : R.Tracked D c) (drawn : R.Drawn s₀) (current : Current R.token c i) (step : Threads.Step c i d) :
    ∃ D', R.Follows i D D' c d := by
  cases step with
  | @mk p t hstep =>
    by_cases hi : i ∈ D
    · obtain ⟨change, hp⟩ := (h.done i hi).step h.sound hstep
      refine ⟨D, change, h.changed drawn change (absurd hi) (fun _ => hp) fun _ j hj token hi' hj' => h.unique j hj i hi token hj' hi', ?_⟩
      intro token a htoken _
      rcases h.done i hi with ⟨hnone, -⟩ | ⟨_, _, -, hret, -⟩
      · rw [hnone] at htoken
        cases htoken
      · rw [hret] at hstep
        cases hstep
    · rcases (h.pending i hi).step h.sound hi h.fresh current hstep with ⟨change, hp⟩ | ⟨change, stored⟩
      · refine ⟨D, change, h.changed drawn change (fun _ => hp) (fun hD => absurd hD hi) fun hD => absurd hD hi, ?_⟩
        intro token a htoken hret
        exact absurd ((Function.update_self i p c.threads).symm.trans hret) (hp.ne_ret htoken)
      · refine ⟨insert i D, change, h.changed drawn change (fun hD => absurd (Set.mem_insert i D) hD) (fun _ => stored.done) ?_, ?_⟩
        · -- the presented token was there until now, so no other refresh with it has been answered
          intro _ j hj token hitoken hjtoken
          obtain ⟨row, hrow, rfl⟩ := stored.presented token hitoken
          rcases h.done j hj with ⟨hnone, -⟩ | ⟨_, _, htoken, -, gone⟩
          · rw [hnone] at hjtoken
            cases hjtoken
          · obtain rfl := Option.some.inj (htoken.symm.trans hjtoken)
            exact absurd rfl (gone.absent row hrow)
        · intro token a htoken hret
          replace hret : p = .ret a := (Function.update_self i p c.threads).symm.trans hret
          obtain ⟨b, row, hp, hrow, hfit, grants, hexpiry⟩ := stored.granted token htoken
          obtain rfl : b = a := Prog.ret.inj (hp.symm.trans hret)
          exact ⟨row, hrow, hfit, grants, hexpiry⟩

/-- A request that has not started. -/
def Starts (R : Requests ι α) (i : ι) (p : Service α) : Prop :=
  (R.token i = none ∧ R.Minting i p) ∨ ∃ token value, R.token i = some token ∧ R.draws i = some value ∧ R.Looking i token value p

theorem tracked_of_reach (starts : ∀ i, R.Starts i (ps i)) (drawn : R.Drawn s₀) (sound : R.sound s₀)
    (h : (Threads.interleaving ⟨s₀, ps⟩).Reach (Current R.token) c) : ∃ D, R.Tracked D c := by
  refine h.invariant (I := fun c => ∃ D, R.Tracked D c) (fun c init => ?_) fun c i d _ ⟨D, hc⟩ current step => ?_
  · obtain rfl : c = ⟨s₀, ps⟩ := init
    refine ⟨∅, sound, fun i _ => drawn.fresh i, fun i _ => ?_, by simp, by simp⟩
    rcases starts i with other | ⟨token, value, htoken, hdraws, looking⟩
    · exact Or.inl other
    · exact Or.inr ⟨token, value, htoken, hdraws, Or.inr (Or.inl looking)⟩
  · obtain ⟨D', hd⟩ := hc.step drawn current step
    exact ⟨D', hd.tracked⟩

/-- In the run from `d` to `e`, a step of a request that revokes the row deletes it. -/
def Revoked (R : Requests ι α) (C : Threads ι Db HttpException α → ι → Prop) (row : RefreshToken)
    (d e : Threads ι Db HttpException α) : Prop :=
  ∃ j before next, (Threads.interleaving d).Reach C before ∧ C before j ∧ Threads.Step before j next ∧
    (Threads.interleaving next).Reach C e ∧ R.revokes j row ∧ row ∈ before.state.refreshToken ∧ row ∉ next.state.refreshToken

/-- A row that fits stays, until its token is used or it is revoked. -/
theorem fate_of_reach (h : R.Tracked D c) (drawn : R.Drawn s₀) {row : RefreshToken} (hrow : row ∈ c.state.refreshToken)
    (hfit : R.fit c.state row) (later : (Threads.interleaving c).Reach (Current R.token) d) :
    ∃ D', R.Tracked D' d ∧ (R.Fate D' d.state row ∨ R.Revoked (Current R.token) row c d) := by
  refine later.invariant (I := fun d => ∃ D', R.Tracked D' d ∧ (R.Fate D' d.state row ∨ R.Revoked (Current R.token) row c d))
    (fun d init => ?_) fun d i e reached ⟨D', hd, fate⟩ current step => ?_
  · obtain rfl : d = c := init
    exact ⟨D, h, Or.inl (Or.inl ⟨hrow, hfit⟩)⟩
  · obtain ⟨D'', he⟩ := hd.step drawn current step
    refine ⟨D'', he.tracked, ?_⟩
    rcases fate with fate | ⟨j, before, next, hbefore, met, taken, hnext, hrevokes, gone⟩
    · exact (fate.changed he.change).imp_right fun ⟨hrevokes, gone⟩ =>
        ⟨i, d, e, reached, current, step, .init rfl, hrevokes, gone⟩
    · exact Or.inr ⟨j, before, next, hbefore, met, taken, hnext.step current step, hrevokes, gone⟩

/-- At most one refresh with a token succeeds. The token that a refresh returns is stored, and can be redeemed until a
    refresh has used it, or a step has revoked it. -/
structure SingleUse (R : Requests ι α) (C : Threads ι Db HttpException α → ι → Prop) (c : Threads ι Db HttpException α) : Prop where
  once : ∀ i j token a b, R.token i = some token → R.token j = some token → c.threads i = .ret a → c.threads j = .ret b → i = j
  kept : ∀ i d token a, C c i → Threads.Step c i d → R.token i = some token → d.threads i = .ret a →
    ∃ row ∈ d.state.refreshToken, R.grants a row ∧ row.expiryDate = R.expiryDate i ∧
      ∀ e, (Threads.interleaving d).Reach C e → (row ∈ e.state.refreshToken ∧ R.redeems e.state row) ∨
        (∃ j b, R.token j = some row.token ∧ e.threads j = .ret b) ∨ R.Revoked C row d e

theorem singleUse_of_reach (starts : ∀ i, R.Starts i (ps i)) (drawn : R.Drawn s₀) (sound : R.sound s₀)
    (h : (Threads.interleaving ⟨s₀, ps⟩).Reach (Current R.token) c) : R.SingleUse (Current R.token) c := by
  obtain ⟨D, hc⟩ := tracked_of_reach starts drawn sound h
  refine ⟨fun i j token a b hi hj hireturns hjreturns => ?_, fun i d token a current step htoken hret => ?_⟩
  · exact hc.unique i (hc.ret hi hireturns) j (hc.ret hj hjreturns) token hi hj
  · obtain ⟨D', hd⟩ := hc.step drawn current step
    obtain ⟨row, hrow, hfit, grants, hexpiry⟩ := hd.granted token a htoken hret
    refine ⟨row, hrow, grants, hexpiry, fun e later => ?_⟩
    obtain ⟨D'', he, fate | revoked⟩ := fate_of_reach hd.tracked drawn hrow hfit later
    · exact (fate.kept he).imp_right Or.inl
    · exact Or.inr (Or.inr revoked)

end Runs

end Requests

end Vms.RefreshTokens
