import Anyem.Server

/-!
# The header in front of a request

The client writes a fixed header and behind it the serialized wrapper; the
server cuts what it read at the first empty line. The header has its empty line
at its end only, so whatever stands behind it comes out as it went in.
-/

namespace Framing

open Separators ThrowingMethods Resource ResourceHolder Server

variable {δ : Type}

/-- `IClient::CLIENT_HEADER`. -/
def clientHeader : Bytes :=
  ascii "HEAD / HTTP/1.0\r\nHost: www.anyem.com\r\nConnection: Close\r\n\r\n"

/-- The header without the empty line that ends it. -/
def headerLines : Bytes :=
  ascii "HEAD / HTTP/1.0\r\nHost: www.anyem.com\r\nConnection: Close"

theorem clientHeader_eq : clientHeader = headerLines ++ headerEnd := by decide

theorem headerEnd_ne_nil : headerEnd ≠ [] := by decide

/-- Three line ends stand in the header, and only the last one is doubled. -/
theorem headerLines_onlyAtEnd : OnlyAtEnd headerEnd headerLines := by
  have cuts : cut headerEnd (headerLines ++ headerEnd) = some (headerLines, []) := by decide
  exact ((cut_eq_some_iff headerEnd_ne_nil).mp cuts).2

theorem cut_framed (s : Bytes) :
    cut headerEnd (clientHeader ++ s) = some (headerLines, s) := by
  rw [cut_eq_some_iff headerEnd_ne_nil, clientHeader_eq]
  exact ⟨rfl, headerLines_onlyAtEnd⟩

/-- What is sent behind the header is what the server unpacks, for all bytes;
and the server unpacks what stands behind the first empty line, or throws when
there is no empty line. -/
theorem framing_round_trip :
    (∀ (s : Bytes) (pool : Pool δ), extractWrapper (clientHeader ++ s) pool = .ok s pool) ∧
    ∀ (b : Bytes) (pool : Pool δ),
      ((∃ ex pool', extractWrapper b pool = .error ex pool') ↔ ¬ headerEnd <:+: b) ∧
      ∀ (r : Bytes) (pool' : Pool δ), extractWrapper b pool = .ok r pool' ↔
        pool' = pool ∧ ∃ p, b = p ++ headerEnd ++ r ∧ OnlyAtEnd headerEnd p := by
  constructor
  · intro s pool
    exact extractWrapper_good pool (cut_framed s)
  · intro b pool
    cases split : cut headerEnd b with
    | none =>
      have threw := extractWrapper_bad pool split
      have absent : ¬ headerEnd <:+: b := by
        rw [← cut_isSome_iff headerEnd_ne_nil, split]
        simp
      refine ⟨iff_of_true ⟨_, _, threw⟩ absent, ?_⟩
      intro r pool'
      refine iff_of_false ?_ ?_
      · intro ran
        rw [threw] at ran
        cases ran
      · rintro ⟨-, p, rfl, -⟩
        exact absent ⟨p, r, rfl⟩
    | some parts =>
      obtain ⟨p, r₀⟩ := parts
      have ran := extractWrapper_good pool split
      obtain ⟨joined, only⟩ := (cut_eq_some_iff headerEnd_ne_nil).mp split
      constructor
      · refine iff_of_false ?_ ?_
        · rintro ⟨ex, pool', threw⟩
          rw [ran] at threw
          cases threw
        · intro absent
          exact absent ⟨p, r₀, joined.symm⟩
      · intro r pool'
        rw [ran]
        constructor
        · intro same
          cases same
          exact ⟨rfl, p, joined, only⟩
        · rintro ⟨rfl, p', joined', only'⟩
          have cuts := (cut_eq_some_iff headerEnd_ne_nil).mpr ⟨joined', only'⟩
          rw [split] at cuts
          cases cuts
          rfl

end Framing
