import Anyem.Reservations

/-!
# The holder of a reservation and everyone else

`PUT` and `RELEASE` compare transaction ids and `GET` refuses a reserved entry,
so a request with another id leaves a reserved entry as it is. `DELETE` does
not compare: it removes the entry under its holder. The holder is protected
from exactly the other actions, over one request and over whole runs.
-/

namespace Exclusion

open ReplyMachine Resource ResourceHolder ResourceManager PoolCells Reservations

variable {δ : Type}

/-- What a request with another transaction id can do to a reserved entry. -/
theorem foreign_request {pool : Pool δ} {k : Bytes} {t : Option Bytes}
    (held : ReservedBy pool k t) {q : Request δ} (here : q.key = k)
    (foreign : q.transactionId ≠ t) :
    ((serve pool q).2 k = pool k ∧ q.action ≠ IResourceHolder.delete) ∨
    ((serve pool q).2 k = none ∧ q.action = IResourceHolder.delete) := by
  subst here
  obtain ⟨r, present, reserved, rfl⟩ := held
  by_cases deletes : q.action = IResourceHolder.delete
  · refine Or.inr ⟨?_, deletes⟩
    rw [serve_here, outcome_delete _ deletes, present]
    rfl
  · refine Or.inl ⟨?_, deletes⟩
    by_cases success : Success (serve pool q).1
    · obtain ⟨result, granted⟩ := granted_here success
      rw [present] at granted ⊢
      generalize (serve pool q).2 q.key = left at granted ⊢
      cases granted with
      | take action found free => simp [reserved] at free
      | put action found held own => exact False.elim (foreign own.symm)
      | release action found held own => exact False.elim (foreign own.symm)
      | read action found => rfl
      | delete action found => exact False.elim (deletes action)
      | unknown unknown entry => rfl
    · rw [refused_serve pool q success]

/-- The event ends the reservation of `t` at `k`: the holder's own `PUT` or
`RELEASE`, or anybody's `DELETE`. -/
def Ends (k : Bytes) (t : Option Bytes) (e : ServerEvent δ) : Prop :=
  e.input.key = k ∧ Success e.reply ∧
    (e.input.action = IResourceHolder.delete ∨
      e.input.transactionId = t ∧ Closing e.input.action)

/-- A reservation lasts through every run in which no event ends it. -/
theorem reservedBy_until {pool : Pool δ} {k : Bytes} {t : Option Bytes}
    (held : ReservedBy pool k t) (qs : List (Request δ))
    (undisturbed : ∀ e ∈ trace serve pool qs, ¬ Ends k t e) :
    ReservedBy (final serve pool qs) k t := by
  obtain ⟨v, hv⟩ := reservedBy_iff_held.mp held
  refine reservedBy_iff_held.mpr ⟨v, ?_⟩
  rw [cell_final, hv]
  apply ReservedCell.held_until
  intro e' member displaces
  rw [← hv] at member
  obtain ⟨e, he, here, rfl⟩ := mem_cell_trace member
  obtain ⟨granted, ends⟩ := displaces
  refine undisturbed e he ⟨here, (answerOf_granted _).mp granted, ?_⟩
  change (∃ w, op e.input = .put t w) ∨ op e.input = .release t ∨ op e.input = .delete at ends
  rcases ends with ⟨w, hop⟩ | hop | hop
  · obtain ⟨action, own⟩ := op_eq_put hop
    exact Or.inr ⟨own, Or.inl action⟩
  · obtain ⟨action, own⟩ := op_eq_release hop
    exact Or.inr ⟨own, Or.inr action⟩
  · exact Or.inl (op_eq_delete hop)

/-- Everyone but the holder leaves a reserved entry as it is, except by `DELETE`;
and in a run where nobody else deletes the entry, no `GET` of another
transaction is granted between the holder's `GET` and its own next `PUT`,
`RELEASE` or `DELETE`. -/
theorem holder_protected_iff_no_foreign_delete (k : Bytes) (t : Option Bytes) :
    (∀ (pool : Pool δ) (q : Request δ), Reachable pool → ReservedBy pool k t → q.key = k →
      q.transactionId ≠ t → Known q.action →
      ((serve pool q).2 k = pool k ↔ q.action ≠ IResourceHolder.delete)) ∧
    (∀ (qs : List (Request δ)) (pre mid post : List (ServerEvent δ)) (g x : ServerEvent δ),
      trace serve emptyPool qs = pre ++ g :: (mid ++ x :: post) →
      g.input.key = k → g.input.action = IResourceHolder.get → g.input.transactionId = t →
      Success g.reply →
      (∀ e ∈ mid, e.input.transactionId = t → ¬ Ends k t e) →
      (∀ e ∈ mid, e.input.key = k → e.input.transactionId ≠ t →
        e.input.action ≠ IResourceHolder.delete) →
      x.input.key = k → x.input.action = IResourceHolder.get → x.input.transactionId ≠ t →
      ¬ Success x.reply) := by
  constructor
  · intro pool q _ held here foreign _
    have present : pool k ≠ none := by
      obtain ⟨r, present, -⟩ := held
      simp [present]
    rcases foreign_request held here foreign with ⟨same, keeps⟩ | ⟨gone, deletes⟩
    · exact iff_of_true same keeps
    · exact iff_of_false (fun same => present (same.symm.trans gone)) (fun h => h deletes)
  · intro qs pre mid post g x split hk hget ht granted own others xk xget _
    obtain ⟨qs₁, qs₂, -, -, hg, hrest⟩ := trace_split serve split
    obtain ⟨qs₃, qs₄, -, hmid, hx, -⟩ := trace_split serve hrest.symm
    have reserved : ReservedBy g.after k t := by
      rw [hg] at granted ⊢
      exact hk ▸ ht ▸ get_reserves hget granted
    have still : ReservedBy (final serve g.after qs₃) k t := by
      refine reservedBy_until reserved qs₃ ?_
      rw [← hmid]
      intro e he ends
      by_cases same : e.input.transactionId = t
      · exact own e he same ends
      · rcases ends.2.2 with deletes | ⟨same', -⟩
        · exact others e he ends.1 same deletes
        · exact same same'
    rw [hx]
    exact get_refused (xk ▸ still) xget

/-- The sample variable, reserved by the first transaction. -/
def heldPool : Pool Nat :=
  final serve emptyPool [sampleRequest IResourceHolder.get "first" 5]

theorem heldPool_reachable : Reachable heldPool :=
  ⟨[sampleRequest IResourceHolder.get "first" 5], rfl⟩

theorem heldPool_reserved :
    ReservedBy heldPool (sampleRequest IResourceHolder.read "" 0).key (some (ascii "first")) :=
  get_reserves rfl (by decide)

/-- The second transaction can neither release the sample variable nor get it. -/
theorem sample_holder_protected :
    (serve heldPool (sampleRequest IResourceHolder.release "second" 0)).2
        (sampleRequest IResourceHolder.release "second" 0).key =
      heldPool (sampleRequest IResourceHolder.release "second" 0).key ∧
    ¬ Success (serve heldPool (sampleRequest IResourceHolder.get "second" 0)).1 := by
  have law := holder_protected_iff_no_foreign_delete (δ := Nat)
    (sampleRequest IResourceHolder.read "" 0).key (some (ascii "first"))
  constructor
  · exact (law.1 heldPool (sampleRequest IResourceHolder.release "second" 0)
      heldPool_reachable heldPool_reserved rfl (by decide) (by decide)).mpr (by decide)
  · let first : Request Nat := sampleRequest IResourceHolder.get "first" 5
    let second : Request Nat := sampleRequest IResourceHolder.get "second" 0
    exact law.2 [first, second] [] [] [] (event serve emptyPool first)
      (event serve heldPool second) rfl rfl rfl rfl (by decide) (by simp) (by simp)
      rfl rfl (by decide)

/-- The second transaction deletes the entry under its holder and is then
granted the variable itself. -/
theorem foreign_delete_displaces_holder :
    (¬ ∀ (pool : Pool Nat) (k : Bytes) (t : Option Bytes) (q : Request Nat), Reachable pool →
      ReservedBy pool k t → q.key = k → q.transactionId ≠ t → Known q.action →
      (serve pool q).2 k = pool k) ∧
    ∀ response ∈ replies serve emptyPool [sampleRequest IResourceHolder.get "first" 5,
      sampleRequest IResourceHolder.delete "second" 0,
      sampleRequest IResourceHolder.get "second" 0], Success response := by
  constructor
  · intro protects
    have same := protects heldPool _ _ (sampleRequest IResourceHolder.delete "second" 0)
      heldPool_reachable heldPool_reserved rfl (by decide) (by decide)
    have gone : (serve heldPool (sampleRequest IResourceHolder.delete "second" 0)).2
        (sampleRequest IResourceHolder.read "" 0).key = none := by decide
    rw [same] at gone
    obtain ⟨r, present, -⟩ := heldPool_reserved
    rw [present] at gone
    cases gone
  · decide

end Exclusion
