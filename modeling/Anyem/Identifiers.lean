import Anyem.PoolInvariant

/-!
# Identifiers and the keys merged from them

The pool is keyed by url, namespace and name joined by the separator. The
constructor of an identifier refuses parts that contain the separator, but a
single colon at a joint can still change sides. A key stands for one accepted
identifier exactly when both joints of the identifier are balanced, and exactly
then its resource is out of reach for requests with another identifier.
-/

namespace Identifiers

open Separators ReplyMachine Resource ResourceIdentifierImpl ResourceHolder ResourceManager
  PoolCells Reservations

variable {δ : Type}

/-- At both joints a colon stands on both sides or on none. -/
def BalancedJoints (i : ResourceIdentifierImpl) : Prop :=
  Balanced colon i.url i.nameSpace i.name

theorem mergedKey_eq_join (i : ResourceIdentifierImpl) :
    mergedKey i = join₃ colon i.url i.nameSpace i.name := by
  simp [mergedKey, separator_eq, join₃]

theorem mergedKey_injective_of_balanced {i j : ResourceIdentifierImpl} (balanced : BalancedJoints i)
    (accepted : i.Accepted) (accepted' : j.Accepted) (same : mergedKey i = mergedKey j) :
    i = j := by
  obtain ⟨url, nameSpace, name⟩ := (accepted_iff i).mp accepted
  obtain ⟨url', nameSpace', name'⟩ := (accepted_iff j).mp accepted'
  rw [mergedKey_eq_join, mergedKey_eq_join] at same
  obtain ⟨hu, hs, hn⟩ :=
    join₃_unique_of_balanced balanced url nameSpace name url' nameSpace' name' same
  cases i
  cases j
  simp only at hu hs hn
  rw [hu, hs, hn]

theorem exists_same_key {i : ResourceIdentifierImpl} (unbalanced : ¬ BalancedJoints i)
    (accepted : i.Accepted) :
    ∃ j : ResourceIdentifierImpl, j.Accepted ∧ mergedKey i = mergedKey j ∧ j ≠ i := by
  obtain ⟨url, nameSpace, name⟩ := (accepted_iff i).mp accepted
  obtain ⟨u, s, n, hu, hs, hn, same, other⟩ :=
    exists_other_reading unbalanced url nameSpace name
  refine ⟨⟨u, s, n⟩, (accepted_iff _).mpr ⟨hu, hs, hn⟩, ?_, ?_⟩
  · rw [mergedKey_eq_join, mergedKey_eq_join]
    exact same
  · rintro rfl
    exact other ⟨rfl, rfl, rfl⟩

theorem unique_key_iff {i : ResourceIdentifierImpl} (accepted : i.Accepted) :
    (∀ j : ResourceIdentifierImpl, j.Accepted → mergedKey i = mergedKey j → i = j) ↔
      BalancedJoints i := by
  constructor
  · intro unique
    by_contra unbalanced
    obtain ⟨j, accepted', same, other⟩ := exists_same_key unbalanced accepted
    exact other (unique j accepted' same).symm
  · intro balanced j accepted' same
    exact mergedKey_injective_of_balanced balanced accepted accepted' same

section Pools

/-- A resource for `i` and a request for another identifier `j`, or the other
way round, never meet: the request has another key, and keeps the resource. -/
def Isolated (δ : Type) (i : ResourceIdentifierImpl) : Prop :=
  ∀ (pool : Pool δ) (q : Request δ) (k : Bytes) (r : ResourceImpl δ)
    (j : ResourceIdentifierImpl), Reachable pool → j.Accepted → j ≠ i → pool k = some r →
    (q.identifier = j ∧ r.resourceIdentifier = some i ∨
      q.identifier = i ∧ r.resourceIdentifier = some j) →
    q.key ≠ k ∧ (serve pool q).2 k = pool k

theorem key_of_reachable {pool : Pool δ} (reachable : Reachable pool) {k : Bytes}
    {r : ResourceImpl δ} (present : pool k = some r) {i : ResourceIdentifierImpl}
    (identified : r.resourceIdentifier = some i) : mergedKey i = k := by
  obtain ⟨qs, rfl⟩ := reachable
  obtain ⟨i', identified', keyed⟩ := (PoolInvariant.represented_run qs k r present).keyed
  have same : i = i' := Option.some.inj (identified.symm.trans identified')
  rw [same, keyed]

theorem isolated_of_balanced {i : ResourceIdentifierImpl} (accepted : i.Accepted)
    (balanced : BalancedJoints i) : Isolated δ i := by
  intro pool q k r j reachable accepted' other present meet
  have apart : q.key ≠ k := by
    intro here
    rcases meet with ⟨rfl, identified⟩ | ⟨rfl, identified⟩
    · have key := key_of_reachable reachable present identified
      exact other (mergedKey_injective_of_balanced balanced accepted accepted'
        (key.trans here.symm)).symm
    · have key := key_of_reachable reachable present identified
      exact other (mergedKey_injective_of_balanced balanced accepted accepted'
        (here.trans key.symm)).symm
  exact ⟨apart, serve_elsewhere pool q apart⟩

/-- The pool in which a `GET` for `i` has just created the resource. -/
theorem created_resource (i : ResourceIdentifierImpl) (uniqid : Bytes) (data : δ) (now : Clock) :
    ∃ r, final serve emptyPool [Request.build IResourceHolder.get i uniqid data now]
      (mergedKey i) = some r ∧ r.resourceIdentifier = some i := by
  have granted : Success (serve (emptyPool : Pool δ)
      (Request.build IResourceHolder.get i uniqid data now)).1 :=
    get_succeeds rfl (fun t held => by obtain ⟨r, present, -⟩ := held; cases present) rfl
  obtain ⟨r, found, -, -, left⟩ := get_granted rfl granted
  rcases found with found | ⟨-, rfl⟩
  · cases found
  · exact ⟨_, left, rfl⟩

theorem isolated_iff [Inhabited δ] {i : ResourceIdentifierImpl} (accepted : i.Accepted) :
    Isolated δ i ↔ BalancedJoints i := by
  constructor
  · intro isolated
    by_contra unbalanced
    obtain ⟨j, accepted', same, other⟩ := exists_same_key unbalanced accepted
    obtain ⟨r, present, identified⟩ := created_resource i [] (default : δ) ⟨[], []⟩
    have apart := (isolated _ (Request.build IResourceHolder.delete j [] default ⟨[], []⟩)
      (mergedKey i) r j ⟨_, rfl⟩ accepted' other present (Or.inl ⟨rfl, identified⟩)).1
    exact apart same.symm
  · intro balanced
    exact isolated_of_balanced accepted balanced

/-- A request leaves resources that were there, or the one it brought. -/
theorem serve_identifier {pool : Pool δ} {q : Request δ} {k : Bytes} {r : ResourceImpl δ}
    (left : (serve pool q).2 k = some r) :
    (∃ found, pool k = some found ∧ found.resourceIdentifier = r.resourceIdentifier) ∨
      r.resourceIdentifier = some q.identifier := by
  by_cases here : q.key = k
  · subst here
    by_cases success : Success (serve pool q).1
    · obtain ⟨result, granted⟩ := granted_here success
      rw [left] at granted
      generalize pool q.key = entry at granted ⊢
      cases granted with
      | create action free => exact Or.inr q.identified
      | take action found free => exact Or.inl ⟨found, rfl, rfl⟩
      | put action found held own => exact Or.inl ⟨found, rfl, rfl⟩
      | release action found held own => exact Or.inl ⟨found, rfl, rfl⟩
      | read action found => exact Or.inl ⟨r, rfl, rfl⟩
      | unknown unknown entry => exact Or.inl ⟨r, rfl, rfl⟩
    · rw [refused_serve pool q success] at left
      exact Or.inl ⟨r, left, rfl⟩
  · rw [serve_elsewhere pool q here] at left
    exact Or.inl ⟨r, left, rfl⟩

/-- Every identifier in the pool came with a request of the run. -/
theorem run_identifier (qs : List (Request δ)) {k : Bytes} {r : ResourceImpl δ}
    (present : final serve emptyPool qs k = some r) :
    ∃ q ∈ qs, r.resourceIdentifier = some q.identifier := by
  have known : ∀ k r, final serve emptyPool qs k = some r →
      ∃ e ∈ trace serve emptyPool qs, r.resourceIdentifier = some e.input.identifier := by
    refine history_invariant serve (fun h pool => ∀ k r, pool k = some r →
      ∃ e ∈ h, r.resourceIdentifier = some e.input.identifier) emptyPool ?_ ?_ qs
    · intro k r present
      cases present
    · intro h pool q known k r left
      rcases serve_identifier left with ⟨found, present, same⟩ | brought
      · obtain ⟨e, member, identified⟩ := known k found present
        exact ⟨e, List.mem_append_left _ member, same ▸ identified⟩
      · exact ⟨event serve pool q, by simp, brought⟩
  obtain ⟨e, member, identified⟩ := known k r present
  obtain ⟨qs₁, qs₂, hqs, -⟩ := mem_trace serve member
  exact ⟨e.input, by simp [hqs], identified⟩

end Pools

/-- An accepted identifier has its key for itself exactly when its joints are
balanced, and exactly then it is isolated in every reachable pool. In a run
whose requests all have such identifiers no request finds or changes the
resource of a different identifier. -/
theorem distinct_resources_iff_balanced_joints [Inhabited δ] :
    (∀ i : ResourceIdentifierImpl, i.Accepted →
      ((∀ j : ResourceIdentifierImpl, j.Accepted → mergedKey i = mergedKey j → i = j) ↔
        BalancedJoints i) ∧
      (Isolated δ i ↔ BalancedJoints i)) ∧
    ∀ qs : List (Request δ), (∀ q ∈ qs, q.identifier.Accepted ∧ BalancedJoints q.identifier) →
      ∀ e ∈ trace serve emptyPool qs, ∀ k r, e.before k = some r →
        r.resourceIdentifier ≠ some e.input.identifier →
        e.input.key ≠ k ∧ e.after k = some r := by
  constructor
  · intro i accepted
    exact ⟨unique_key_iff accepted, isolated_iff accepted⟩
  · intro qs balanced e member k r present other
    obtain ⟨qs₁, qs₂, hqs, he⟩ := mem_trace serve member
    have before : final serve emptyPool qs₁ k = some r := by
      rw [he] at present
      exact present
    obtain ⟨q, inRun, identified⟩ := run_identifier qs₁ before
    have apart : q.identifier ≠ e.input.identifier := by
      intro same
      exact other (same ▸ identified)
    obtain ⟨accepted, -⟩ := balanced q (by simp [hqs, inRun])
    obtain ⟨accepted', balanced'⟩ := balanced e.input (by simp [hqs])
    obtain ⟨elsewhere, kept⟩ := isolated_of_balanced accepted' balanced'
      (final serve emptyPool qs₁) e.input k r q.identifier ⟨qs₁, rfl⟩ accepted apart before
      (Or.inr ⟨rfl, identified⟩)
    refine ⟨elsewhere, ?_⟩
    rw [he]
    exact kept.trans before

/-- A colon at the end of a url and one at the start of a namespace make the
same key, and the second identifier's `DELETE` removes the first one's resource. -/
theorem colon_moves_between_parts :
    (¬ ∀ i j : ResourceIdentifierImpl, i.Accepted → j.Accepted → mergedKey i = mergedKey j →
      i = j) ∧
    (let i : ResourceIdentifierImpl := ⟨ascii "a:", ascii "b", ascii "c"⟩
     let j : ResourceIdentifierImpl := ⟨ascii "a", ascii ":b", ascii "c"⟩
     let now : Clock := ⟨ascii "2015-06-01", ascii "10:00:00:000000"⟩
     ∀ response ∈ replies serve emptyPool
        [Request.build IResourceHolder.get i (ascii "first") 5 now,
          Request.build IResourceHolder.delete j (ascii "second") 0 now],
      Success response) := by
  constructor
  · intro injective
    have same := injective ⟨ascii "a:", ascii "b", ascii "c"⟩ ⟨ascii "a", ascii ":b", ascii "c"⟩
      (by decide) (by decide) (by decide)
    exact absurd same (by decide)
  · decide

end Identifiers
