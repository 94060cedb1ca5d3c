import Anyem.KeyedMachine
import Anyem.PoolCells

/-!
# Requests for different keys

The holder looks one entry up and writes that entry back, so the server is a
machine that keeps an entry for each merged key. The requests for a key are
answered as if there were no others, in every run.
-/

namespace Isolation

open ReplyMachine KeyedMachine Resource ResourceHolder ResourceManager PoolCells

variable {δ : Type}

/-- What a request does to the entry at its key. -/
def actOn (q : Request δ) (entry : Option (ResourceImpl δ)) :
    ResponseWrapperImpl δ × Option (ResourceImpl δ) :=
  (respond (q.outcome entry), nextEntry entry (q.outcome entry))

/-- The server serves a request at the request's key. -/
def keyed : Keyed (serve (δ := δ)) where
  key := Request.key
  act := actOn
  acts := serve_eq

/-- The replies to the requests for a key, and the entry that they leave, are
those of the run of these requests alone; so two neighbouring requests for
different keys change places without any other change. -/
theorem keys_do_not_interfere :
    (∀ (qs : List (Request δ)) (k : Bytes),
      (eventsFor k (trace serve emptyPool qs)).map Event.reply =
          replies serve emptyPool (qs.filter fun q => q.key = k) ∧
        final serve emptyPool qs k =
          final serve emptyPool (qs.filter fun q => q.key = k) k) ∧
    ∀ (pre post : List (Request δ)) (q q' : Request δ), q.key ≠ q'.key →
      (∃ r r' before after, before.length = pre.length ∧
        replies serve emptyPool (pre ++ q :: q' :: post) = before ++ r :: r' :: after ∧
        replies serve emptyPool (pre ++ q' :: q :: post) = before ++ r' :: r :: after) ∧
      final serve emptyPool (pre ++ q :: q' :: post) =
        final serve emptyPool (pre ++ q' :: q :: post) := by
  constructor
  · intro qs k
    exact keyed.run_alone rfl qs
  · intro pre post q q' apart
    exact keyed.run_swap emptyPool pre post apart

end Isolation
