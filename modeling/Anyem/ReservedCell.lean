import Anyem.ReplyMachine

/-!
# A value behind a reservation

One variable of a synchronised store, without the store: it is absent, free,
or held by the token that reserved it. A `get` reserves the variable and hands
out its value, and creates it from the offered value when there is none; a
`put` or a `release` with the holder's token ends the reservation; a `delete`
asks for no token. The laws say what the granted requests of a run look like,
and which value they hand out.
-/

namespace ReservedCell

open ReplyMachine

universe u v

inductive Cell (V : Type u) (T : Type v) where
  | absent
  | free (value : V)
  | held (value : V) (token : T)

inductive Request (V : Type u) (T : Type v) where
  | get (token : T) (offer : Option V)
  | put (token : T) (value : V)
  | release (token : T)
  | read
  | delete
  | other

inductive Answer (V : Type u) where
  | refused
  | done
  | value (v : V)

variable {V : Type u} {T : Type v}

def Answer.granted : Answer V → Bool
  | .refused => false
  | .done | .value _ => true

namespace Cell

def value? : Cell V T → Option V
  | .absent => none
  | .free v | .held v _ => some v

@[simp] theorem value?_eq_none (c : Cell V T) : c.value? = none ↔ c = .absent := by
  cases c <;> simp [value?]

end Cell

abbrev CellEvent (V : Type u) (T : Type v) := Event (Cell V T) (Request V T) (Answer V)

namespace Request

/-- The requests that take part in locking. -/
def locks : Request V T → Bool
  | .get _ _ | .put _ _ | .release _ | .delete => true
  | .read | .other => false

/-- The requests after which nobody holds the variable. -/
def ends : Request V T → Bool
  | .put _ _ | .release _ | .delete => true
  | .get _ _ | .read | .other => false

end Request

/-- The granted locking requests of a history. -/
def lockHistory (h : List (CellEvent V T)) : List (Request V T) :=
  (h.filter fun e => e.input.locks && e.reply.granted).map Event.input

/-- What may stand immediately before a granted locking request. -/
def MayFollow (last : Option (Request V T)) : Request V T → Prop
  | .get _ _ => last = none ∨ ∃ r, last = some r ∧ r.ends = true
  | .put t _ | .release t => ∃ offer, last = some (.get t offer)
  | .delete => ∃ r, last = some r
  | .read | .other => True

/-- The value that a granted `get` created the variable with. -/
def created (e : CellEvent V T) : Option V :=
  match e.before, e.input with
  | .absent, .get _ offer => if e.reply.granted then offer else none
  | _, _ => none

/-- The request was granted and deleted the variable. -/
def Deletes (e : CellEvent V T) : Prop :=
  e.input = .delete ∧ e.reply.granted = true

/-- The request was granted and reserved the variable. -/
def Takes (e : CellEvent V T) : Prop :=
  (∃ t offer, e.input = .get t offer) ∧ e.reply.granted = true

/-- The value written by a granted `put`. -/
def written (e : CellEvent V T) : Option V :=
  match e.input with
  | .put _ w => if e.reply.granted then some w else none
  | _ => none

/-- The last value written in a history, or the value it started from. -/
def latest (h : List (CellEvent V T)) (v : V) : V :=
  (h.filterMap written).getLast?.getD v

theorem latest_snoc_written {e : CellEvent V T} {w : V} (hw : written e = some w)
    (h : List (CellEvent V T)) (v : V) : latest (h ++ [e]) v = w := by
  simp [latest, hw]

theorem latest_snoc_other {e : CellEvent V T} (hw : written e = none)
    (h : List (CellEvent V T)) (v : V) : latest (h ++ [e]) v = latest h v := by
  simp [latest, hw]

variable [DecidableEq T]

def step : Cell V T → Request V T → Answer V × Cell V T
  | .absent, .get t (some v) => (.value v, .held v t)
  | .absent, .get _ none => (.refused, .absent)
  | .free v, .get t _ => (.value v, .held v t)
  | .held v t, .get _ _ => (.refused, .held v t)
  | .held v t, .put s w => if t = s then (.done, .free w) else (.refused, .held v t)
  | .held v t, .release s => if t = s then (.done, .free v) else (.refused, .held v t)
  | c, .put _ _ => (.refused, c)
  | c, .release _ => (.refused, c)
  | .absent, .read => (.refused, .absent)
  | .free v, .read => (.value v, .free v)
  | .held v t, .read => (.value v, .held v t)
  | .absent, .delete => (.refused, .absent)
  | .free _, .delete => (.done, .absent)
  | .held _ _, .delete => (.done, .absent)
  | c, .other => (.done, c)

@[simp] theorem step_other (c : Cell V T) : step c .other = (.done, c) := by
  cases c <;> rfl

/-- A refused request changes nothing. -/
theorem refused_unchanged {c : Cell V T} {r : Request V T}
    (refused : (step c r).1 = .refused) : (step c r).2 = c := by
  cases c <;> cases r <;> simp_all [step]
  all_goals split at refused <;> simp_all

/-- A holder is displaced by its own token and by deletion only. -/
theorem held_unchanged {v : V} {t : T} {r : Request V T}
    (foreign : ∀ s w, r = .put s w ∨ r = .release s → s ≠ t) (kept : r ≠ .delete) :
    (step (.held v t) r).2 = .held v t := by
  cases r with
  | put s w => simp [step, (foreign s w (Or.inl rfl)).symm]
  | release s => simp [step, (foreign s v (Or.inr rfl)).symm]
  | delete => exact False.elim (kept rfl)
  | get s offer => rfl
  | read => rfl
  | other => rfl

/-- A reservation was there before, or is made by a `get`. -/
theorem held_came {c : Cell V T} {r : Request V T} {v : V} {t : T}
    (held : (step c r).2 = .held v t) : c = .held v t ∨ ∃ offer, r = .get t offer := by
  cases c with
  | absent =>
    cases r with
    | get s offer =>
      cases offer with
      | none => cases held
      | some w =>
        cases held
        exact Or.inr ⟨_, rfl⟩
    | _ => cases held
  | free w =>
    cases r with
    | get s offer =>
      cases held
      exact Or.inr ⟨offer, rfl⟩
    | _ => cases held
  | held w s =>
    cases r with
    | put u x =>
      rw [step] at held
      split at held
      · cases held
      · exact Or.inl held
    | release u =>
      rw [step] at held
      split at held
      · cases held
      · exact Or.inl held
    | delete => cases held
    | get u offer => exact Or.inl held
    | read => exact Or.inl held
    | other => exact Or.inl held

section LockHistory

/-- The last granted locking request determines the kind of the cell. -/
def LastLock (last : Option (Request V T)) : Cell V T → Prop
  | .absent => last = none ∨ last = some .delete
  | .free _ => (∃ t v, last = some (.put t v)) ∨ ∃ t, last = some (.release t)
  | .held _ t => ∃ offer, last = some (.get t offer)

theorem lastLock_step {last : Option (Request V T)} {c : Cell V T} (r : Request V T)
    (ok : LastLock last c) (locks : r.locks = true) (granted : (step c r).1.granted = true) :
    MayFollow last r ∧ LastLock (some r) (step c r).2 := by
  cases c with
  | absent =>
    cases r with
    | get t offer =>
      cases offer with
      | none => simp [step, Answer.granted] at granted
      | some v =>
        refine ⟨ok.imp id ?_, ⟨some v, rfl⟩⟩
        intro h
        exact ⟨.delete, h, rfl⟩
    | _ => simp [step, Answer.granted, Request.locks] at granted locks
  | free v =>
    cases r with
    | get t offer =>
      refine ⟨Or.inr ?_, ⟨offer, rfl⟩⟩
      rcases ok with ⟨s, w, h⟩ | ⟨s, h⟩
      · exact ⟨_, h, rfl⟩
      · exact ⟨_, h, rfl⟩
    | delete =>
      refine ⟨?_, Or.inr rfl⟩
      rcases ok with ⟨s, w, h⟩ | ⟨s, h⟩
      · exact ⟨_, h⟩
      · exact ⟨_, h⟩
    | _ => simp [step, Answer.granted, Request.locks] at granted locks
  | held v t =>
    obtain ⟨offer, h⟩ := ok
    cases r with
    | put s w =>
      by_cases same : t = s
      · subst s
        simp only [step, if_true]
        exact ⟨⟨offer, h⟩, Or.inl ⟨t, w, rfl⟩⟩
      · simp [step, same, Answer.granted] at granted
    | release s =>
      by_cases same : t = s
      · subst s
        simp only [step, if_true]
        exact ⟨⟨offer, h⟩, Or.inr ⟨t, rfl⟩⟩
      · simp [step, same, Answer.granted] at granted
    | delete => exact ⟨⟨_, h⟩, Or.inr rfl⟩
    | _ => simp [step, Answer.granted, Request.locks] at granted locks

theorem quiet_unchanged {c : Cell V T} {r : Request V T}
    (quiet : (r.locks && (step c r).1.granted) = false) : (step c r).2 = c := by
  cases hr : (step c r).1 with
  | refused => exact refused_unchanged hr
  | done | value =>
    rw [hr] at quiet
    cases r <;> simp [Request.locks, Answer.granted] at quiet
    all_goals cases c <;> rfl

/-- In every run from the absent variable the granted locking requests follow
each other as `MayFollow` says, and the cell is the one the last of them left. -/
theorem lock_history (rs : List (Request V T)) :
    EachAfter MayFollow (lockHistory (trace step .absent rs)) ∧
      LastLock (lockHistory (trace step .absent rs)).getLast? (final step .absent rs) := by
  refine history_invariant step
    (fun h c => EachAfter MayFollow (lockHistory h) ∧ LastLock (lockHistory h).getLast? c)
    .absent ⟨eachAfter_nil _, Or.inl rfl⟩ ?_ rs
  rintro h c r ⟨each, last⟩
  cases hq : r.locks && (step c r).1.granted with
  | false =>
    have same : lockHistory (h ++ [event step c r]) = lockHistory h := by
      simp [lockHistory, event, hq]
    rw [same, quiet_unchanged hq]
    exact ⟨each, last⟩
  | true =>
    have more : lockHistory (h ++ [event step c r]) = lockHistory h ++ [r] := by
      simp [lockHistory, event, hq]
    obtain ⟨locks, granted⟩ := Bool.and_eq_true_iff.mp hq
    obtain ⟨follows, left⟩ := lastLock_step r last locks granted
    rw [more, List.getLast?_append, List.getLast?_singleton]
    exact ⟨eachAfter_snoc each follows, left⟩

end LockHistory

section ValueHistory

/-- What one request does to the value: it creates the variable with it,
removes it, writes it, or leaves it alone. -/
theorem value_step (c : Cell V T) (r : Request V T) :
    (∃ v, created (event step c r) = some v ∧ (step c r).2.value? = some v) ∨
    (step c r).2 = .absent ∨
    (created (event step c r) = none ∧ ∃ w, written (event step c r) = some w ∧
      (step c r).2.value? = some w ∧ c ≠ .absent) ∨
    (created (event step c r) = none ∧ written (event step c r) = none ∧
      (step c r).2.value? = c.value?) := by
  cases c with
  | absent =>
    cases r with
    | get t offer =>
      cases offer with
      | none => exact Or.inr (Or.inl rfl)
      | some v => exact Or.inl ⟨v, rfl, rfl⟩
    | _ => exact Or.inr (Or.inl rfl)
  | free v =>
    cases r with
    | delete => exact Or.inr (Or.inl rfl)
    | _ => exact Or.inr (Or.inr (Or.inr ⟨rfl, rfl, rfl⟩))
  | held v t =>
    cases r with
    | put s w =>
      by_cases same : t = s
      · refine Or.inr (Or.inr (Or.inl ⟨rfl, w, ?_, ?_, by simp⟩))
        · simp [written, event, step, same, Answer.granted]
        · simp [step, same, Cell.value?]
      · refine Or.inr (Or.inr (Or.inr ⟨rfl, ?_, ?_⟩))
        · simp [written, event, step, same, Answer.granted]
        · simp [step, same]
    | release s =>
      refine Or.inr (Or.inr (Or.inr ⟨rfl, rfl, ?_⟩))
      by_cases same : t = s
      · simp [step, same, Cell.value?]
      · simp [step, same]
    | delete => exact Or.inr (Or.inl rfl)
    | _ => exact Or.inr (Or.inr (Or.inr ⟨rfl, rfl, rfl⟩))

/-- A present variable has the last value written since the request that
created it, or the value it was created with. -/
def ValueLaw (h : List (CellEvent V T)) (c : Cell V T) : Prop :=
  ∀ v, c.value? = some v → ∃ pre e mid d, h = pre ++ e :: mid ∧ created e = some d ∧
    (∀ x ∈ mid, created x = none) ∧ v = latest mid d

theorem valueLaw_step {h : List (CellEvent V T)} {c : Cell V T} (law : ValueLaw h c)
    (r : Request V T) : ValueLaw (h ++ [event step c r]) (step c r).2 := by
  intro v hv
  -- A request that does not create the variable lengthens the part after the creation.
  have longer : ∀ {v₀ : V}, c.value? = some v₀ → created (event step c r) = none →
      ∃ pre e mid d, h ++ [event step c r] = pre ++ e :: (mid ++ [event step c r]) ∧
        created e = some d ∧ (∀ x ∈ mid ++ [event step c r], created x = none) ∧
        v₀ = latest mid d := by
    intro v₀ hv₀ old
    obtain ⟨pre, e, mid, d, rfl, he, hmid, hlatest⟩ := law v₀ hv₀
    refine ⟨pre, e, mid, d, by simp, he, ?_, hlatest⟩
    intro x hx
    rcases List.mem_append.mp hx with hx | hx
    · exact hmid x hx
    · exact List.mem_singleton.mp hx ▸ old
  rcases value_step c r with ⟨d, new, hd⟩ | gone | ⟨old, w, hw, hw', present⟩ | ⟨old, hw, same⟩
  · have hvd : v = d := Option.some.inj (hv.symm.trans hd)
    exact ⟨h, event step c r, [], d, rfl, new, by simp, hvd⟩
  · rw [gone] at hv
    cases hv
  · have hvw : v = w := Option.some.inj (hv.symm.trans hw')
    cases hc : c.value? with
    | none => exact False.elim (present ((Cell.value?_eq_none c).mp hc))
    | some v₀ =>
      obtain ⟨pre, e, mid, d, hsplit, he, hmid, -⟩ := longer hc old
      exact ⟨pre, e, _, d, hsplit, he, hmid, by rw [latest_snoc_written hw, hvw]⟩
  · obtain ⟨pre, e, mid, d, hsplit, he, hmid, hlatest⟩ := longer (same.symm.trans hv) old
    exact ⟨pre, e, _, d, hsplit, he, hmid, by rw [latest_snoc_other hw, hlatest]⟩

theorem value_history (rs : List (Request V T)) :
    ValueLaw (trace step .absent rs) (final step .absent rs) := by
  refine history_invariant step ValueLaw .absent ?_ (fun h c r law => valueLaw_step law r) rs
  intro v hv
  cases hv

/-- A variable is present exactly when some `get` was granted and no `delete`
was granted after it. -/
def PresenceLaw (h : List (CellEvent V T)) (c : Cell V T) : Prop :=
  (∃ pre g mid, h = pre ++ g :: mid ∧ Takes g ∧ ∀ x ∈ mid, ¬ Deletes x) ↔ c ≠ .absent

theorem presenceLaw_step {h : List (CellEvent V T)} {c : Cell V T} (law : PresenceLaw h c)
    (r : Request V T) : PresenceLaw (h ++ [event step c r]) (step c r).2 := by
  by_cases takes : Takes (event step c r)
  · refine iff_of_true ⟨h, event step c r, [], rfl, takes, by simp⟩ ?_
    obtain ⟨⟨t, offer, hr⟩, granted⟩ := takes
    change r = .get t offer at hr
    subst r
    cases c <;> cases offer <;> simp_all [event, step, Answer.granted]
  · by_cases deletes : Deletes (event step c r)
    · refine iff_of_false ?_ ?_
      · rintro ⟨pre, g, mid, split, hg, hmid⟩
        rcases split_snoc split with ⟨-, rfl, -⟩ | ⟨mid', rfl, -⟩
        · exact takes hg
        · exact hmid _ (by simp) deletes
      · have hr : r = .delete := deletes.1
        subst r
        cases c <;> simp [step]
    · have same : (step c r).2 ≠ .absent ↔ c ≠ .absent := by
        cases c <;> cases r
        all_goals simp_all [Takes, Deletes, event, step, Answer.granted]
        all_goals split <;> simp_all
      rw [PresenceLaw, same]
      exact (exists_last_snoc takes deletes).trans law

theorem presence_history (rs : List (Request V T)) :
    PresenceLaw (trace step .absent rs) (final step .absent rs) := by
  refine history_invariant step PresenceLaw .absent ?_ (fun h c r law => presenceLaw_step law r) rs
  refine iff_of_false ?_ (fun h => h rfl)
  rintro ⟨pre, g, mid, split, -⟩
  cases pre <;> cases split

end ValueHistory

section Exclusion

/-- The request was granted and ended the reservation of `t`. -/
def Displaces (t : T) (e : CellEvent V T) : Prop :=
  e.reply.granted = true ∧ ((∃ w, e.input = .put t w) ∨ e.input = .release t ∨ e.input = .delete)

/-- While nothing displaces its holder, a held variable stays held by the same
token and with the same value. -/
theorem held_until {v : V} {t : T} (rs : List (Request V T))
    (undisturbed : ∀ e ∈ trace step (.held v t) rs, ¬ Displaces t e) :
    final step (.held v t) rs = .held v t := by
  induction rs with
  | nil => rfl
  | cons r rs ih =>
    have first : ¬ Displaces t (event step (.held v t) r) :=
      undisturbed _ List.mem_cons_self
    have same : (step (.held v t) r).2 = .held v t := by
      cases hr : (step (.held v t) r).1.granted with
      | false =>
        apply refused_unchanged
        cases ha : (step (.held v t) r).1 <;> simp_all [Answer.granted]
      | true =>
        apply held_unchanged
        · rintro s w hs rfl
          refine first ⟨hr, ?_⟩
          rcases hs with hs | hs
          · exact Or.inl ⟨w, hs⟩
          · exact Or.inr (Or.inl hs)
        · intro hs
          exact first ⟨hr, Or.inr (Or.inr hs)⟩
    rw [final, same]
    apply ih
    intro e he
    apply undisturbed
    rw [trace, same]
    exact List.mem_cons_of_mem _ he

end Exclusion

end ReservedCell
