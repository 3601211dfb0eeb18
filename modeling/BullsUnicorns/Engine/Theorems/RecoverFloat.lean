import BullsUnicorns.Engine.Reconcile

/-!
# The two corrections of the house float

Each moves the books onto the chain exactly or not at all, touches the pool only, and finds nothing to do
after itself or after the other.
-/

namespace BullsUnicorns.Engine

variable {pool : List String} {l : Ledger} {f : Field} {chainHeld minGap openStake : ℚ} {opts : WriteDownOpts}

/-! ## What is asked of a correction -/

/-- Everything is as it was but one field of the pool wallets. -/
def OnlyPool (pool : List String) (f : Field) (l l' : Ledger) : Prop :=
  List.Forall₂ (fun e e' => e'.1 = e.1 ∧ e'.2 = { e.2 with bal := Function.update e.2.bal f (e'.2.bal f) } ∧
    (pool.contains e.2.id = false → e'.2 = e.2)) l.entries l'.entries

/-- No balance of the field is lower than it was. -/
def NoneLowered (f : Field) (l l' : Ledger) : Prop :=
  List.Forall₂ (fun e e' => e.2.bal f ≤ e'.2.bal f) l.entries l'.entries

/-- House, players and open stakes are what the chain holds. -/
def OnChain (pool : List String) (l : Ledger) (f : Field) (chainHeld openStake : ℚ) : Prop :=
  houseFloat pool l f + playersOwed pool l f + openStake = chainHeld

def PoolNonneg (pool : List String) (l : Ledger) (f : Field) : Prop := ∀ a ∈ poolAccts pool l, 0 ≤ a.bal f

/-- The credit: what it may touch, when it moves, and that nothing is left to move after it. -/
structure ResyncExact (pool : List String) (l : Ledger) (f : Field) (chainHeld minGap openStake : ℚ)
    (opts : WriteDownOpts) (l' : Ledger) (c : Correction) : Prop where
  only : OnlyPool pool f l l'
  raises : NoneLowered f l l'
  exact : c.moved ≠ 0 → OnChain pool l' f chainHeld openStake ∧ PoolNonneg pool l' f ∧ minGap ≤ c.moved
  still : c.moved = 0 → l' = l
  again : (resyncPoolToChain pool l' f chainHeld minGap openStake).2.moved = 0
  other : c.moved ≠ 0 → ∃ c', writeDownOverclaim pool l' f chainHeld openStake opts = some (l', c') ∧ c'.moved = 0

/-- The write-down likewise, never beyond its share of the float and never while players are short. -/
structure WriteDownExact (pool : List String) (l : Ledger) (f : Field) (chainHeld minGap openStake : ℚ)
    (opts : WriteDownOpts) (l' : Ledger) (c : Correction) : Prop where
  only : OnlyPool pool f l l'
  lowers : NoneLowered f l' l
  exact : c.moved ≠ 0 → OnChain pool l' f chainHeld openStake ∧ PoolNonneg pool l' f ∧
    c.moved ≤ opts.frac * houseFloat pool l f ∧ playersOwed pool l f ≤ chainHeld
  still : c.moved = 0 → l' = l
  again : ∃ c', writeDownOverclaim pool l' f chainHeld openStake opts = some (l', c') ∧ c'.moved = 0
  other : c.moved ≠ 0 → (resyncPoolToChain pool l' f chainHeld minGap openStake).2.moved = 0

/-- Both corrections of one field, on the same inputs. -/
def CorrectsExactly (pool : List String) (l : Ledger) (f : Field) (chainHeld minGap openStake : ℚ)
    (opts : WriteDownOpts) : Prop :=
  ResyncExact pool l f chainHeld minGap openStake opts (resyncPoolToChain pool l f chainHeld minGap openStake).1
      (resyncPoolToChain pool l f chainHeld minGap openStake).2 ∧
    ∃ l' c, writeDownOverclaim pool l f chainHeld openStake opts = some (l', c) ∧
      WriteDownExact pool l f chainHeld minGap openStake opts l' c

/-! ## The sums -/

/-- What the house accounts outside the pool hold. -/
def botsHold (pool : List String) (l : Ledger) (f : Field) : ℚ :=
  ((l.values.filter fun a => !pool.contains a.id && a.isBot).map (·.bal f)).sum

theorem houseFloat_eq : houseFloat pool l f = poolHeld pool l f + botsHold pool l f := by
  unfold houseFloat poolHeld poolAccts botsHold
  induction l.values with
  | nil => simp
  | cons a as ih =>
      by_cases hp : pool.contains a.id = true
      · simp only [List.filter_cons, hp, Bool.true_or, Bool.not_true, Bool.false_and, if_true, List.map_cons,
          List.sum_cons, ih, Bool.false_eq_true, if_false]
        ring
      · have hp' : pool.contains a.id = false := by simpa using hp
        cases hb : a.isBot with
        | true =>
            simp only [List.filter_cons, hp', hb, Bool.false_or, Bool.not_false, Bool.true_and, if_true,
              List.map_cons, List.sum_cons, ih, Bool.false_eq_true, if_false]
            ring
        | false =>
            simp only [List.filter_cons, hp', hb, Bool.false_or, Bool.not_false, Bool.true_and, ih,
              Bool.false_eq_true, if_false]

section
variable (pool l f) (g : ℚ → ℚ)

/-- What `setPool` does to one account. -/
def setAcct (a : Account) : Account :=
  if pool.contains a.id then { a with bal := Function.update a.bal f (g (a.bal f)) } else a

theorem setPool_values : (setPool pool l f g).values = l.values.map (setAcct pool f g) := OrderedMap.values_map _ _

@[simp]
theorem setAcct_id (a : Account) : (setAcct pool f g a).id = a.id := by
  unfold setAcct
  split <;> rfl

@[simp]
theorem setAcct_isBot (a : Account) : (setAcct pool f g a).isBot = a.isBot := by
  unfold setAcct
  split <;> rfl

theorem setAcct_pool {a : Account} (ha : pool.contains a.id = true) : (setAcct pool f g a).bal f = g (a.bal f) := by
  rw [setAcct, if_pos ha]
  exact Function.update_self ..

theorem setAcct_other {a : Account} (ha : pool.contains a.id = false) : setAcct pool f g a = a := by
  rw [setAcct, if_neg (Bool.eq_false_iff.mp ha)]

theorem poolAccts_setPool : poolAccts pool (setPool pool l f g) = (poolAccts pool l).map (setAcct pool f g) := by
  simp only [poolAccts, setPool_values, List.filter_map, Function.comp_def, setAcct_id]

theorem poolHeld_setPool :
    poolHeld pool (setPool pool l f g) f = ((poolAccts pool l).map fun a => g (a.bal f)).sum := by
  rw [poolHeld, poolAccts_setPool, List.map_map]
  refine congrArg List.sum (List.map_congr_left fun a ha => ?_)
  exact setAcct_pool pool f g (List.mem_filter.mp ha).2

/-- Accounts outside the pool keep their place and their balance. -/
theorem sum_setPool {p : Account → Bool} (hp : ∀ a, p (setAcct pool f g a) = p a)
    (hout : ∀ a, p a = true → pool.contains a.id = false) :
    (((setPool pool l f g).values.filter p).map (·.bal f)).sum = ((l.values.filter p).map (·.bal f)).sum := by
  simp only [setPool_values, List.filter_map, Function.comp_def, hp, List.map_map]
  refine congrArg List.sum (List.map_congr_left fun a ha => ?_)
  rw [setAcct_other pool f g (hout a (List.mem_filter.mp ha).2)]

theorem playersOwed_setPool : playersOwed pool (setPool pool l f g) f = playersOwed pool l f := by
  refine sum_setPool pool l f g (fun a => by simp) fun a ha => ?_
  rw [Bool.not_eq_true', Bool.or_eq_false_iff] at ha
  exact ha.1

theorem botsHold_setPool : botsHold pool (setPool pool l f g) f = botsHold pool l f := by
  refine sum_setPool pool l f g (fun a => by simp) fun a ha => ?_
  rw [Bool.and_eq_true, Bool.not_eq_true'] at ha
  exact ha.1

theorem houseFloat_setPool : houseFloat pool (setPool pool l f g) f =
    houseFloat pool l f - poolHeld pool l f + ((poolAccts pool l).map fun a => g (a.bal f)).sum := by
  rw [houseFloat_eq, houseFloat_eq, botsHold_setPool, poolHeld_setPool]
  ring

theorem setPool_only : OnlyPool pool f l (setPool pool l f g) := by
  rw [OnlyPool, setPool, OrderedMap.map, List.forall₂_map_right_iff, List.forall₂_same]
  intro e _
  cases hp : pool.contains e.2.id with
  | true => simp
  | false => simp

theorem setPool_raises (hg : ∀ a ∈ poolAccts pool l, a.bal f ≤ g (a.bal f)) : NoneLowered f l (setPool pool l f g) := by
  rw [NoneLowered, setPool, OrderedMap.map, List.forall₂_map_right_iff, List.forall₂_same]
  intro e he
  cases hp : pool.contains e.2.id with
  | true =>
      have hmem : e.2 ∈ poolAccts pool l := List.mem_filter.mpr ⟨List.mem_map_of_mem he, hp⟩
      simpa using hg e.2 hmem
  | false => simp

theorem setPool_lowers (hg : ∀ a ∈ poolAccts pool l, g (a.bal f) ≤ a.bal f) : NoneLowered f (setPool pool l f g) l := by
  rw [NoneLowered, setPool, OrderedMap.map, List.forall₂_map_left_iff, List.forall₂_same]
  intro e he
  cases hp : pool.contains e.2.id with
  | true =>
      have hmem : e.2 ∈ poolAccts pool l := List.mem_filter.mpr ⟨List.mem_map_of_mem he, hp⟩
      simpa using hg e.2 hmem
  | false => simp

theorem setPool_nonneg (hg : ∀ a ∈ poolAccts pool l, 0 ≤ g (a.bal f)) : PoolNonneg pool (setPool pool l f g) f := by
  intro a ha
  rw [poolAccts_setPool] at ha
  obtain ⟨b, hb, rfl⟩ := List.mem_map.mp ha
  rw [setAcct_pool pool f g (List.mem_filter.mp hb).2]
  exact hg b hb

/-- Setting every wallet to what it holds changes nothing. -/
theorem setPool_eq_self (hg : ∀ a ∈ poolAccts pool l, g (a.bal f) = a.bal f) : setPool pool l f g = l := by
  refine OrderedMap.map_eq_self fun a ha => ?_
  split
  · next hp =>
      rw [hg a (List.mem_filter.mpr ⟨ha, hp⟩), Function.update_eq_self]
  · rfl

end

theorem OnlyPool.refl (pool : List String) (f : Field) (l : Ledger) : OnlyPool pool f l l := by
  rw [OnlyPool, List.forall₂_same]
  exact fun e _ => ⟨rfl, by rw [Function.update_eq_self], fun _ => rfl⟩

theorem NoneLowered.refl (f : Field) (l : Ledger) : NoneLowered f l l := by
  rw [NoneLowered, List.forall₂_same]
  exact fun e _ => le_refl _

/-! ## When they move -/

/-- What the vault holds and the books do not claim. -/
def gapOf (pool : List String) (l : Ledger) (f : Field) (chainHeld openStake : ℚ) : ℚ :=
  chainHeld - playersOwed pool l f - openStake - houseFloat pool l f

theorem resync_cases (pool : List String) (l : Ledger) (f : Field) (chainHeld minGap openStake : ℚ)
    {r : Ledger × Correction} (hr : resyncPoolToChain pool l f chainHeld minGap openStake = r) :
    (r.1 = l ∧ r.2.moved = 0) ∨
      (0 < (poolAccts pool l).length ∧ 1 / 10000 < gapOf pool l f chainHeld openStake ∧
        minGap ≤ gapOf pool l f chainHeld openStake ∧ r.2.moved = gapOf pool l f chainHeld openStake ∧
        r.1 = setPool pool l f (· + gapOf pool l f chainHeld openStake / (poolAccts pool l).length)) := by
  unfold resyncPoolToChain at hr
  extract_lets house player refuse target gap each at hr
  split at hr
  · subst hr
    exact .inl ⟨rfl, rfl⟩
  next hpool =>
  split at hr
  · subst hr
    exact .inl ⟨rfl, rfl⟩
  split at hr
  · subst hr
    exact .inl ⟨rfl, rfl⟩
  next hgap =>
  split at hr
  · subst hr
    exact .inl ⟨rfl, rfl⟩
  next hmin =>
  subst hr
  exact .inr ⟨Nat.pos_of_ne_zero hpool, not_le.mp hgap, not_lt.mp hmin, rfl, rfl⟩

theorem resync_of_small (h : gapOf pool l f chainHeld openStake ≤ 1 / 10000) :
    (resyncPoolToChain pool l f chainHeld minGap openStake).1 = l ∧
      (resyncPoolToChain pool l f chainHeld minGap openStake).2.moved = 0 := by
  rcases resync_cases pool l f chainHeld minGap openStake rfl with hstill | ⟨-, hgap, -⟩
  · exact hstill
  · exact absurd h (not_le.mpr hgap)

/-- The write-down gets past every refusal. -/
structure Reaches (pool : List String) (l : Ledger) (f : Field) (chainHeld openStake : ℚ) (opts : WriteDownOpts) :
    Prop where
  wallets : 0 < (poolAccts pool l).length
  reading : 0 < chainHeld
  excess : opts.least < excessOf pool l f chainHeld openStake
  players : playersOwed pool l f ≤ chainHeld
  held : excessOf pool l f chainHeld openStake ≤ poolHeld pool l f
  share : 0 < houseFloat pool l f → excessOf pool l f chainHeld openStake / houseFloat pool l f ≤ opts.frac

theorem writeDown_of_refused (h : ¬ Reaches pool l f chainHeld openStake opts) :
    ∃ c, writeDownOverclaim pool l f chainHeld openStake opts = some (l, c) ∧ c.moved = 0 := by
  unfold writeDownOverclaim
  extract_lets house player refuse excess held
  split
  · exact ⟨_, rfl, rfl⟩
  next hpool =>
  split
  · exact ⟨_, rfl, rfl⟩
  next hchain =>
  split
  · exact ⟨_, rfl, rfl⟩
  next hexcess =>
  split
  · exact ⟨_, rfl, rfl⟩
  next hplayers =>
  split
  · exact ⟨_, rfl, rfl⟩
  next hheld =>
  split
  · exact ⟨_, rfl, rfl⟩
  next hshare =>
  refine absurd ⟨Nat.pos_of_ne_zero hpool, not_not.mp hchain, not_le.mp hexcess, not_lt.mp hplayers, not_lt.mp hheld,
    fun hhouse => ?_⟩ h
  exact not_lt.mp fun hlt => hshare ⟨hhouse, hlt⟩

theorem writeDown_of_reached (h : Reaches pool l f chainHeld openStake opts) :
    writeDownOverclaim pool l f chainHeld openStake opts =
      if poolHeld pool l f = 0 then none
      else some (setPool pool l f fun x => max 0 (x - excessOf pool l f chainHeld openStake * (x / poolHeld pool l f)),
        ⟨excessOf pool l f chainHeld openStake, houseFloat pool l f,
          houseFloat pool l f - excessOf pool l f chainHeld openStake, none⟩) := by
  unfold writeDownOverclaim
  rw [if_neg h.wallets.ne', if_neg (not_not.mpr h.reading), if_neg (not_le.mpr h.excess), if_neg (not_lt.mpr h.players),
    if_neg (not_lt.mpr h.held), if_neg (fun hc => absurd (h.share hc.1) (not_le.mpr hc.2))]

/-! ## What they leave -/

theorem poolHeld_nonneg (h : PoolNonneg pool l f) : 0 ≤ poolHeld pool l f :=
  List.sum_nonneg fun x hx => by
    obtain ⟨a, ha, rfl⟩ := List.mem_map.mp hx
    exact h a ha

/-- Equal parts of a gap add up to it. -/
theorem sum_equal_parts (as : List Account) (f : Field) (x : ℚ) :
    (as.map fun a => a.bal f + x).sum = (as.map (·.bal f)).sum + as.length * x := by
  induction as with
  | nil => simp
  | cons a as ih =>
      simp only [List.map_cons, List.sum_cons, List.length_cons, Nat.cast_add, Nat.cast_one, ih]
      ring

/-- Shares in proportion add up to the share of the sum. -/
theorem sum_in_proportion (as : List Account) (f : Field) (excess held : ℚ) :
    (as.map fun a => a.bal f - excess * (a.bal f / held)).sum =
      (as.map (·.bal f)).sum - excess * ((as.map (·.bal f)).sum / held) := by
  induction as with
  | nil => simp
  | cons a as ih =>
      simp only [List.map_cons, List.sum_cons, ih]
      ring

theorem share_nonneg {x excess held : ℚ} (hx : 0 ≤ x) (hheld : 0 < held) (hle : excess ≤ held) :
    0 ≤ x - excess * (x / held) := by
  have hpart : excess * (x / held) ≤ held * (x / held) := mul_le_mul_of_nonneg_right hle (div_nonneg hx hheld.le)
  rw [mul_div_cancel₀ x hheld.ne'] at hpart
  linarith

theorem sum_written (hpool : PoolNonneg pool l f) {excess : ℚ} (hheld : 0 < poolHeld pool l f)
    (hle : excess ≤ poolHeld pool l f) :
    ((poolAccts pool l).map fun a => max 0 (a.bal f - excess * (a.bal f / poolHeld pool l f))).sum =
      poolHeld pool l f - excess := by
  have hmax : ((poolAccts pool l).map fun a => max 0 (a.bal f - excess * (a.bal f / poolHeld pool l f))) =
      (poolAccts pool l).map fun a => a.bal f - excess * (a.bal f / poolHeld pool l f) :=
    List.map_congr_left fun a ha => max_eq_right (share_nonneg (hpool a ha) hheld hle)
  rw [hmax, sum_in_proportion, ← poolHeld, div_self hheld.ne', mul_one]

theorem poolHeld_written (hpool : PoolNonneg pool l f) {excess : ℚ} (hheld : 0 < poolHeld pool l f)
    (hle : excess ≤ poolHeld pool l f) :
    poolHeld pool (setPool pool l f fun x => max 0 (x - excess * (x / poolHeld pool l f))) f =
      poolHeld pool l f - excess := by
  rw [poolHeld_setPool, sum_written hpool hheld hle]

theorem excess_of_onChain (h : OnChain pool l f chainHeld openStake) : excessOf pool l f chainHeld openStake = 0 :=
  sub_eq_zero.mpr h

theorem gap_of_onChain (h : OnChain pool l f chainHeld openStake) : gapOf pool l f chainHeld openStake = 0 := by
  unfold OnChain at h
  unfold gapOf
  linarith

theorem resync_onChain (f : Field) (chainHeld openStake : ℚ) (hwallets : 0 < (poolAccts pool l).length) :
    OnChain pool (setPool pool l f (· + gapOf pool l f chainHeld openStake / (poolAccts pool l).length)) f chainHeld
      openStake := by
  have hlen : ((poolAccts pool l).length : ℚ) ≠ 0 := Nat.cast_ne_zero.mpr hwallets.ne'
  rw [OnChain, houseFloat_setPool, playersOwed_setPool, sum_equal_parts, ← poolHeld, mul_div_cancel₀ _ hlen, gapOf]
  ring

theorem writeDown_onChain (hpool : PoolNonneg pool l f) (hheld : 0 < poolHeld pool l f)
    (hle : excessOf pool l f chainHeld openStake ≤ poolHeld pool l f) :
    OnChain pool (setPool pool l f fun x => max 0 (x - excessOf pool l f chainHeld openStake * (x / poolHeld pool l f)))
      f chainHeld openStake := by
  rw [OnChain, houseFloat_setPool, playersOwed_setPool, sum_written hpool hheld hle, excessOf]
  ring

/-- On the chain's own figures a write-down with something in the pool moves nothing. -/
theorem writeDown_of_onChain (hpool : PoolNonneg pool l f) (hchain : OnChain pool l f chainHeld openStake)
    (hheld : opts.least < 0 → 0 < poolHeld pool l f) :
    ∃ c, writeDownOverclaim pool l f chainHeld openStake opts = some (l, c) ∧ c.moved = 0 := by
  have hzero := excess_of_onChain hchain
  by_cases hreach : Reaches pool l f chainHeld openStake opts
  · have hpos : 0 < poolHeld pool l f := hheld (hzero ▸ hreach.excess)
    have hself : setPool pool l f (fun x => max 0 (x - 0 * (x / poolHeld pool l f))) = l := by
      refine setPool_eq_self pool l f _ fun a ha => ?_
      rw [zero_mul, sub_zero]
      exact max_eq_right (hpool a ha)
    have hwritten := (writeDown_of_reached hreach).trans (if_neg hpos.ne')
    rw [hzero, hself] at hwritten
    exact ⟨_, hwritten, rfl⟩
  · exact writeDown_of_refused hreach

/-! ## The credit -/

theorem resync_exact (hpool : PoolNonneg pool l f) :
    ResyncExact pool l f chainHeld minGap openStake opts (resyncPoolToChain pool l f chainHeld minGap openStake).1
      (resyncPoolToChain pool l f chainHeld minGap openStake).2 := by
  rcases resync_cases pool l f chainHeld minGap openStake rfl with ⟨hl, hmoved⟩ | ⟨hwallets, hgap, hmin, hmoved, hl⟩
  · rw [hl]
    exact {
      only := .refl pool f l
      raises := .refl f l
      exact := fun h => absurd hmoved h
      still := fun _ => rfl
      again := hmoved
      other := fun h => absurd hmoved h }
  · have hpos : 0 < gapOf pool l f chainHeld openStake := lt_trans (by norm_num) hgap
    have heach : 0 < gapOf pool l f chainHeld openStake / ((poolAccts pool l).length : ℚ) :=
      div_pos hpos (Nat.cast_pos.mpr hwallets)
    have hchain := resync_onChain f chainHeld openStake hwallets
    have hsum := poolHeld_setPool pool l f (· + gapOf pool l f chainHeld openStake / (poolAccts pool l).length)
    have hnonneg := setPool_nonneg pool l f (· + gapOf pool l f chainHeld openStake / (poolAccts pool l).length)
      fun a ha => add_nonneg (hpool a ha) heach.le
    rw [hl]
    constructor
    case only => exact setPool_only ..
    case raises => exact setPool_raises pool l f _ fun a _ => le_add_of_nonneg_right heach.le
    case exact => exact fun _ => ⟨hchain, hnonneg, hmoved ▸ hmin⟩
    case still => exact fun h => absurd (hmoved.symm.trans h) hpos.ne'
    case again =>
        refine (resync_of_small ?_).2
        rw [gap_of_onChain hchain]
        norm_num
    case other =>
        refine fun _ => writeDown_of_onChain hnonneg hchain fun _ => ?_
        rw [hsum, sum_equal_parts, ← poolHeld, mul_div_cancel₀ _ (Nat.cast_ne_zero.mpr hwallets.ne')]
        exact add_pos_of_nonneg_of_pos (poolHeld_nonneg hpool) hpos

/-! ## The write-down -/

/-- What a write-down that is not refused must find: a true excess within its share of the float, and a pool
that it can be taken from in proportion. Only a negative threshold lets one through without them, or a float
that is not positive, of which no share is asked. -/
def WritesSafely (pool : List String) (l : Ledger) (f : Field) (chainHeld openStake : ℚ) (opts : WriteDownOpts) : Prop :=
  Reaches pool l f chainHeld openStake opts →
    0 ≤ excessOf pool l f chainHeld openStake ∧ 0 < poolHeld pool l f ∧
      (excessOf pool l f chainHeld openStake ≠ 0 →
        excessOf pool l f chainHeld openStake ≤ opts.frac * houseFloat pool l f) ∧
      (opts.least < 0 → excessOf pool l f chainHeld openStake < poolHeld pool l f)

theorem writeDown_exact (hpool : PoolNonneg pool l f) (h : WritesSafely pool l f chainHeld openStake opts) :
    ∃ l' c, writeDownOverclaim pool l f chainHeld openStake opts = some (l', c) ∧
      WriteDownExact pool l f chainHeld minGap openStake opts l' c := by
  by_cases hreach : Reaches pool l f chainHeld openStake opts
  · obtain ⟨hexcess, hheld, hshare, hleast⟩ := h hreach
    have hchain := writeDown_onChain hpool hheld hreach.held
    have hsum := poolHeld_written hpool hheld hreach.held
    have hnonneg := setPool_nonneg pool l f
      (fun x => max 0 (x - excessOf pool l f chainHeld openStake * (x / poolHeld pool l f))) fun a _ => le_max_left _ _
    refine ⟨_, _, (writeDown_of_reached hreach).trans (if_neg hheld.ne'), ?_⟩
    constructor
    case only => exact setPool_only ..
    case lowers =>
        refine setPool_lowers pool l f _ fun a ha => max_le (hpool a ha) ?_
        exact sub_le_self _ (mul_nonneg hexcess (div_nonneg (hpool a ha) hheld.le))
    case exact => exact fun hne => ⟨hchain, hnonneg, hshare hne, hreach.players⟩
    case still =>
        intro hzero
        dsimp only at hzero
        refine setPool_eq_self pool l f _ fun a ha => ?_
        rw [hzero, zero_mul, sub_zero]
        exact max_eq_right (hpool a ha)
    case again =>
        refine writeDown_of_onChain hnonneg hchain fun hneg => ?_
        rw [hsum]
        exact sub_pos.mpr (hleast hneg)
    case other =>
        refine fun _ => (resync_of_small ?_).2
        rw [gap_of_onChain hchain]
        norm_num
  · obtain ⟨c, hc, hmoved⟩ := writeDown_of_refused hreach
    exact ⟨l, c, hc, .refl pool f l, .refl f l, fun hne => absurd hmoved hne, fun _ => rfl, ⟨c, hc, hmoved⟩,
      fun hne => absurd hmoved hne⟩

/-- A write-down that is exact was taken from something. -/
theorem held_of_reached (hpool : PoolNonneg pool l f) (hreach : Reaches pool l f chainHeld openStake opts)
    {l' : Ledger} {c : Correction} (hc : writeDownOverclaim pool l f chainHeld openStake opts = some (l', c)) :
    0 < poolHeld pool l f ∧ c.moved = excessOf pool l f chainHeld openStake ∧
      l' = setPool pool l f fun x => max 0 (x - excessOf pool l f chainHeld openStake * (x / poolHeld pool l f)) := by
  rw [writeDown_of_reached hreach] at hc
  split at hc
  · cases hc
  · next hne =>
      obtain ⟨rfl, rfl⟩ := Prod.mk.inj (Option.some.inj hc)
      exact ⟨lt_of_le_of_ne (poolHeld_nonneg hpool) (Ne.symm hne), rfl, rfl⟩

theorem safely_of_exact (hpool : PoolNonneg pool l f) {l' : Ledger} {c : Correction}
    (hc : writeDownOverclaim pool l f chainHeld openStake opts = some (l', c))
    (h : WriteDownExact pool l f chainHeld minGap openStake opts l' c) :
    WritesSafely pool l f chainHeld openStake opts := by
  intro hreach
  obtain ⟨hheld, hmoved, hl⟩ := held_of_reached hpool hreach hc
  have hsum := poolHeld_written hpool hheld hreach.held
  rw [← hl] at hsum
  have hexcess : 0 ≤ excessOf pool l f chainHeld openStake := by
    have hle : ((poolAccts pool l).map fun a =>
        max 0 (a.bal f - excessOf pool l f chainHeld openStake * (a.bal f / poolHeld pool l f))).sum ≤
          ((poolAccts pool l).map (·.bal f)).sum := by
      refine List.sum_le_sum fun a ha => ?_
      have hlow := h.lowers
      rw [hl, NoneLowered, setPool, OrderedMap.map, List.forall₂_map_left_iff, List.forall₂_same] at hlow
      obtain ⟨e, he, rfl⟩ := List.mem_map.mp (List.mem_filter.mp ha).1
      have hentry := hlow e he
      rw [if_pos (List.mem_filter.mp ha).2] at hentry
      simpa using hentry
    rw [sum_written hpool hheld hreach.held, ← poolHeld] at hle
    linarith
  refine ⟨hexcess, hheld, fun hne => ?_, fun hneg => ?_⟩
  · rw [← hmoved] at hne ⊢
    exact (h.exact hne).2.2.1
  · refine lt_of_le_of_ne hreach.held fun heq => ?_
    -- everything was written off: a second write-down has no proportion to go by
    have hchain := writeDown_onChain hpool hheld hreach.held
    rw [← hl] at hchain
    have hempty : poolHeld pool l' f = 0 := by rw [hsum, heq, sub_self]
    have hagain : Reaches pool l' f chainHeld openStake opts := {
      wallets := by
        rw [hl, poolAccts_setPool, List.length_map]
        exact hreach.wallets
      reading := hreach.reading
      excess := by
        rw [excess_of_onChain hchain]
        exact hneg
      players := by
        rw [hl, playersOwed_setPool]
        exact hreach.players
      held := by rw [excess_of_onChain hchain, hempty]
      share := by
        intro hhouse
        rw [hl, houseFloat_setPool, sum_written hpool hheld hreach.held] at hhouse
        have hpos : 0 < houseFloat pool l f := by linarith
        rw [excess_of_onChain hchain, zero_div]
        exact le_trans (div_nonneg hexcess hpos.le) (hreach.share hpos) }
    obtain ⟨c', hc', -⟩ := h.again
    rw [writeDown_of_reached hagain, if_pos hempty] at hc'
    cases hc'

/-! ## Both -/

/-- The corrections do what is asked of them exactly when the write-down finds what it must. -/
theorem float_corrections_exact_iff (hpool : PoolNonneg pool l f) :
    CorrectsExactly pool l f chainHeld minGap openStake opts ↔
      WritesSafely pool l f chainHeld openStake opts := by
  constructor
  · rintro ⟨-, l', c, hc, h⟩
    exact safely_of_exact hpool hc h
  · exact fun h => ⟨resync_exact hpool, writeDown_exact hpool h⟩

/-- A pool wallet, and one other account. -/
def twoAccounts (f : Field) (pool other : ℚ) (id : String) (isBot : Bool) : Ledger :=
  (OrderedMap.empty.set "P" ((Account.fresh "P" .bull true).add f pool)).set id ((Account.fresh id .bull isBot).add f other)

theorem twoAccounts_nonneg {f : Field} {x other : ℚ} {id : String} {isBot : Bool} (hx : 0 ≤ x) (hid : id ≠ "P") :
    PoolNonneg ["P"] (twoAccounts f x other id isBot) f := by
  intro a ha
  obtain ⟨hmem, hp⟩ := List.mem_filter.mp ha
  obtain ⟨k, hk⟩ := OrderedMap.mem_values.mp hmem
  rw [twoAccounts, OrderedMap.get_set, OrderedMap.get_set] at hk
  split at hk
  · obtain rfl := Option.some.inj hk
    exact absurd (by simpa [Account.add, Account.fresh] using hp) hid
  split at hk
  · obtain rfl := Option.some.inj hk
    simpa [Account.add, Account.fresh] using hx
  · cases hk

theorem float_corrections_exact_witness :
    CorrectsExactly ["P"] (twoAccounts .uwu 400 900 "alice" false) .uwu 1200 0 0 ⟨none, none⟩ := by
  refine (float_corrections_exact_iff (twoAccounts_nonneg (by norm_num) (by decide))).mpr fun _ => ?_
  exact ⟨by decide +kernel, by decide +kernel, fun _ => by decide +kernel, fun h => absurd h (by decide +kernel)⟩

/-- The treasury has paid for anchors out of nothing, the float is nil, and of a nil float any share is let through. -/
theorem writeDown_takes_more_than_its_share :
    ¬ CorrectsExactly ["P"] (twoAccounts .sol 100 (-100) TREASURY_ID true) .sol 10 0 50 ⟨none, none⟩ := by
  rintro ⟨-, l', c, hc, h⟩
  have hmoved : (writeDownOverclaim ["P"] (twoAccounts .sol 100 (-100) TREASURY_ID true) .sol 10 50 ⟨none, none⟩).map
      (fun r => r.2.moved) = some 40 := by decide +kernel
  rw [hc, Option.map_some, Option.some_inj] at hmoved
  dsimp only at hmoved
  have hshare := (h.exact (by rw [hmoved]; norm_num)).2.2.1
  have hfloat : houseFloat ["P"] (twoAccounts .sol 100 (-100) TREASURY_ID true) .sol = 0 := by decide +kernel
  rw [hmoved, hfloat] at hshare
  norm_num at hshare

end BullsUnicorns.Engine
