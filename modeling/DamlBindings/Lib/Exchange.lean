import Mathlib.Data.List.Basic
import Mathlib.Data.List.Forall2

/-!
# Exchanges with a server

A client makes calls.  A call either fails before anything is sent, or is one request, and what it
returns is made of the response.  Calls that are made one after the other then amount to the server
being given their requests in order: nothing is sent again, nothing is left out, and every call
reads the response to its own request.
-/

namespace Exchange

universe u

variable {ι Req Resp σ : Type*} {ε α : Type u}

/-- What becomes of one call: its request is sent if there is one. -/
def exchange (request : ι → Except ε Req) (answer : ι → Resp → Except ε α)
    (server : Req → σ → Resp × σ) (i : ι) (s : σ) : Except ε α × σ :=
  match request i with
  | .error e => (.error e, s)
  | .ok r => (answer i (server r s).1, (server r s).2)

/-- Calls one after the other. -/
def session (call : ι → σ → Except ε α × σ) : List ι → σ → List (Except ε α) × σ
  | [], s => ([], s)
  | i :: is, s =>
    ((call i s).1 :: (session call is (call i s).2).1, (session call is (call i s).2).2)

/-- Requests one after the other. -/
def serve (server : Req → σ → Resp × σ) : List Req → σ → List Resp × σ
  | [], s => ([], s)
  | r :: rs, s => ((server r s).1 :: (serve server rs (server r s).2).1,
      (serve server rs (server r s).2).2)

variable {request : ι → Except ε Req} {answer : ι → Resp → Except ε α}
  {server : Req → σ → Resp × σ} {call : ι → σ → Except ε α × σ}

/-- Every call of a session has a result: the error that kept it from being sent, or what it makes
of the response that its request gets in the state that the calls before it lead to. -/
theorem session_results (h : ∀ i s, call i s = exchange request answer server i s) (is : List ι)
    (s : σ) : List.Forall₂ (fun i out => (∃ e, request i = .error e ∧ out = .error e) ∨
      ∃ r s', request i = .ok r ∧ out = answer i (server r s').1) is (session call is s).1 := by
  induction is generalizing s with
  | nil => exact .nil
  | cons i is ih =>
    refine .cons ?_ (ih _)
    rw [h, exchange]
    rcases hi : request i with e | r
    · exact .inl ⟨e, rfl, rfl⟩
    · exact .inr ⟨r, s, rfl, rfl⟩

/-- Where every call has a request, a session is the run of the server on the requests, and every
call reads the response to its own one. -/
theorem session_of_sent (h : ∀ i s, call i s = exchange request answer server i s) {is : List ι}
    {rs : List Req} (hrs : List.Forall₂ (fun i r => request i = .ok r) is rs) (s : σ) :
    session call is s =
      (List.zipWith answer is (serve server rs s).1, (serve server rs s).2) := by
  induction hrs generalizing s with
  | nil => rfl
  | @cons i r is rs hr _ ih =>
    have hcall : call i s = (answer i (server r s).1, (server r s).2) := by
      rw [h, exchange, hr]
    simp only [session, hcall, ih]
    rfl

/-- Where no call has a request, the server is left alone. -/
theorem session_of_unsent (h : ∀ i s, call i s = exchange request answer server i s) {is : List ι}
    (hall : ∀ i ∈ is, ∃ e, request i = .error e) (s : σ) :
    (session call is s).2 = s ∧ List.Forall₂
      (fun i out => ∃ e, request i = .error e ∧ out = .error e) is (session call is s).1 := by
  induction is with
  | nil => exact ⟨rfl, .nil⟩
  | cons i is ih =>
    rw [List.forall_mem_cons] at hall
    obtain ⟨e, he⟩ := hall.1
    have hcall : call i s = (.error e, s) := by
      rw [h, exchange, he]
    simp only [session, hcall]
    exact ⟨(ih hall.2).1, .cons ⟨e, he, rfl⟩ (ih hall.2).2⟩

end Exchange
