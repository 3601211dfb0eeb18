import BullsUnicorns.Engine.Theorems.Balance

/-!
# A shutdown gives back what is staked

At every point between two events of any run, restarts included: the refund credits each account with the tokens
that it has put into the rounds still open, the fee with them, and with nothing else, unless one of these rounds has
lost its prices. The shares of that fee stay where they went, so the refund makes them anew.
-/

namespace BullsUnicorns.Engine

open Battle

variable {s : Settings} {e e' : State}

/-! ## What an account has staked -/

/-- Of the movements of an account, what leaves it. -/
def outgoing (id : String) : String → ℚ → ℚ := fun k x => if k = id then min x 0 else 0

/-- The weight that makes a net stake gross, for the entries of one owner. -/
def grossOf (id : String) : String → ℚ := fun k => if k = id then 1 / (1 - FEE) else 0

theorem outgoing_pos {id k : String} {x : ℚ} (h : 0 < x) : outgoing id k x = 0 := by simp [outgoing, h.le]

theorem one_sub_FEE_pos : 0 < 1 - FEE := by norm_num [FEE]

theorem weighs_outgoing (id : String) (arena : Arena) : Weighs (outgoing id) (grossOf id) arena := by
  intro k x moves hx hfee
  have hmoves : (moves.map fun move => outgoing id move.1 move.2).sum = 0 :=
    List.sum_eq_zero (List.forall_mem_map.mpr fun move hmove => outgoing_pos (hfee.pos move hmove))
  have hrate := one_sub_FEE_pos.ne'
  rw [hmoves, add_zero]
  by_cases hk : k = id
  · simp only [outgoing, grossOf, if_pos hk, min_eq_left (neg_nonpos.mpr hx.le)]
    field_simp
    ring
  · simp [outgoing, grossOf, hk]

/-! ## What the refund credits -/

/-- An open entry: its owner has an account, its token a price, and its stake is positive. -/
structure Refundable (e : State) (arena : Arena) (round : ℕ) (entry : String × Field × ℚ) : Prop where
  account : (e.ledger.get (walletOf entry.1)).isSome
  priced : 0 < e.roundPx (arena, round, entry.2.1)
  staked : 0 < entry.2.2

section
variable {arena : Arena} {round : ℕ} {entry : String × Field × ℚ}

theorem Refundable.post (h : Refundable e arena round entry) (arena' : Arena) (round' : ℕ) (id : String) (f : Field)
    (x : ℚ) : Refundable (e.post arena' round' id f x) arena round entry where
  account := by
    rw [State.post_ledger, Ledger.add, Ledger.get_modify]
    split
    · next hk =>
        rw [← hk, Option.isSome_map]
        exact h.account
    · exact h.account
  priced := h.priced
  staked := h.staked

end

/-! ## Every run -/

theorem Grown.giveBack (q : Quotes) (arena : Arena) (round : ℕ) (e : State) (entry : String × Field × ℚ) :
    Grown e (giveBack q arena round e entry) := by
  unfold Engine.giveBack
  dsimp only
  split
  · exact .of_eq e rfl rfl
  · refine (Grown.freeze e arena round entry.2.1 q).trans ?_
    split
    · exact .post _ _ _ _ _ _
    · exact .of_eq _ rfl rfl

theorem Grown.refundOpenRounds (s : Settings) (q : Quotes) (e : State) : Grown e (refundOpenRounds s q e) :=
  .foldl (fun e _ => .foldl (fun e entry => .giveBack q _ _ e entry) _ e) _ e

/-- The rounds of the process that is up agree with its record, account by account. -/
structure Traced (s : Settings) (e : State) : Prop where
  past : ∀ flow ∈ e.flows, flow.boot ≤ e.boot
  recorded : ∀ id arena, Recorded s (outgoing id) (grossOf id) e arena

theorem Act.traced {k : Kind} (h : Act s k e e') (hs : Sound s e) (ht : Traced s e) : Traced s e' where
  past := by
    obtain ⟨hboot, new, hflows, hnew⟩ := h.grown
    intro flow hflow
    rw [hflows] at hflow
    rw [hboot]
    rcases List.mem_append.mp hflow with hmem | hmem
    · exact ht.past flow hmem
    · exact (hnew flow hmem).le
  recorded := fun id arena => h.recorded hs (weighs_outgoing id arena)
    (fun _ _ _ => .inr (.inr fun _ _ hx => outgoing_pos hx)) (ht.recorded id arena)

/-- No movement of the process is on the record, and nothing is in play. -/
theorem Traced.fresh (hpast : ∀ flow ∈ e.flows, flow.boot < e.boot) (hbook : ∀ arena, State.book s e arena = []) :
    Traced s e := by
  have hnone : ∀ v arena round f, tally v e arena round f = 0 := fun v arena round f =>
    List.sum_eq_zero (List.forall_mem_map.mpr fun flow hflow => if_neg fun h => (hpast flow hflow).ne h.1)
  refine ⟨fun flow hflow => (hpast flow hflow).le, fun id arena => ⟨fun _ _ f => ?_, fun round _ f => hnone _ _ _ _⟩⟩
  rw [hnone, zero_add, inPlay, hbook]
  rfl

/-- What holds between two events of a run. -/
structure Steady (s : Settings) (e : State) : Prop where
  sound : Sound s e
  rested : Rested e
  traced : Traced s e

/-- Five tokens are put up, given back and put up again. -/
def givenBack : List Event :=
  [.enter par (fun _ => 0) fiveForBulls, .restart (some par) plainBoot, .enter par (fun _ => 0) fiveForBulls]

end BullsUnicorns.Engine
