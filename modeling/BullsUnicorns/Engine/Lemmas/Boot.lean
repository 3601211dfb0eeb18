import BullsUnicorns.Engine.Lemmas.Thrift
import Mathlib.Data.List.Perm.Subperm

/-!
# Shutdown and start

The refund of the open rounds credits their owners. What a process wrote comes back as it was, but for accounts
that nothing was done with and for SOL that no deposit backs; then orphans are retired and arenas seeded.
-/

namespace BullsUnicorns.Engine

open Battle

variable {s : Settings} {e e' e'' : State} {id : String}

/-! ## The refund -/

/-- The owners of open entries are credited. -/
structure Refunded (s : Settings) (e e' : State) : Prop where
  still : Still e e'
  booked : Booked s.pool nobody e e'
  credits : ∀ id a, e.ledger.get id = some a →
    ∃ a', e'.ledger.get id = some a' ∧ a'.skeleton = a.skeleton ∧ ∀ f, a.bal f ≤ a'.bal f
  others : ∀ id, (∀ arena, id ∉ e.owners arena) → ∀ f, e'.ledger.bal id f = e.ledger.bal id f
  absent : ∀ id, e.ledger.get id = none → e'.ledger.get id = none

theorem Still.owners (h : Still e e') : e'.owners = e.owners := by
  funext arena
  cases arena with
  | two aid => simp [State.owners, h.two]
  | many aid => simp [State.owners, h.many]

theorem Still.book (h : Still e e') : State.book s e' = State.book s e := by
  funext arena
  cases arena with
  | two aid => simp [State.book, h.two]
  | many aid => simp [State.book, h.many]

theorem Refunded.refl (e : State) : Refunded s e e :=
  ⟨.refl e, .of_eq rfl rfl, fun _ a ha => ⟨a, ha, rfl, fun _ => le_refl _⟩, fun _ _ _ => rfl, fun _ h => h⟩

theorem Refunded.trans (h : Refunded s e e') (h' : Refunded s e' e'') : Refunded s e e'' where
  still := h.still.trans h'.still
  booked := h.booked.and h'.booked
  credits := by
    intro id a ha
    obtain ⟨a', ha', hsk, hle⟩ := h.credits id a ha
    obtain ⟨a'', ha'', hsk', hle'⟩ := h'.credits id a' ha'
    exact ⟨a'', ha'', hsk'.trans hsk, fun f => (hle f).trans (hle' f)⟩
  others := fun id hid f => (h'.others id (by rwa [h.still.owners]) f).trans (h.others id hid f)
  absent := fun id hid => h'.absent id (h.absent id hid)

theorem Refunded.freeze (e : State) (arena : Arena) (round : ℕ) (f : Field) (q : Quotes) :
    Refunded s e (e.freeze arena round f q) :=
  ⟨still_freeze e arena round f q, .freeze e arena round f q, fun _ a ha => ⟨a, ha, rfl, fun _ => le_refl _⟩,
    fun _ _ _ => rfl, fun _ h => h⟩

theorem giveBack_refunded (q : Quotes) {arena : Arena} {entry : String × Field × ℚ}
    (howner : walletOf entry.1 ∈ e.owners arena) (round : ℕ) : Refunded s e (giveBack q arena round e entry) := by
  unfold giveBack
  extract_lets id e₁ units
  split
  · exact .refl e
  · next a ha =>
      have hprice : Refunded s e e₁ := .freeze e arena round entry.2.1 q
      rw [← hprice.still.owners] at howner
      refine hprice.trans ?_
      change e₁.ledger.get id = some a at ha
      clear_value e₁
      split
      · next hpos =>
          refine ⟨still_post e₁ _ _ _ _ _, .credit (by simp [id, ha]) hpos.le _ _ _, fun k b hb => ?_, fun k hk f => ?_,
            fun k hk => Ledger.absent_add hk⟩
          · rw [State.post_ledger, Ledger.get_add]
            by_cases hkid : k = id
            · rw [if_pos hkid, ← hkid, hb]
              refine ⟨_, rfl, rfl, fun f => ?_⟩
              rw [Account.bal_add]
              split
              · linarith
              · simp
            · rw [if_neg hkid]
              exact ⟨b, hb, rfl, fun _ => le_refl _⟩
          · refine Ledger.bal_add_ne ?_
            rintro rfl
            exact hk arena howner
      · exact .refl e₁

theorem book_owner {arena : Arena} {entry : String × Field × ℚ} (h : entry ∈ State.book s e arena) :
    walletOf entry.1 ∈ e.owners arena := by
  cases arena with
  | two aid =>
      obtain ⟨en, hen, rfl⟩ := List.mem_map.mp h
      exact List.mem_map.mpr ⟨en, hen, rfl⟩
  | many aid =>
      obtain ⟨en, hen, rfl⟩ := List.mem_map.mp h
      exact List.mem_map.mpr ⟨en, hen, rfl⟩

theorem refundOpenRounds_refunded (s : Settings) (q : Quotes) (e : State) : Refunded s e (refundOpenRounds s q e) := by
  have hround : ∀ (arena : Arena) (round : ℕ) (entries : List (String × Field × ℚ)) (e : State),
      (∀ entry ∈ entries, walletOf entry.1 ∈ e.owners arena) →
      Refunded s e (entries.foldl (giveBack q arena round) e) := by
    intro arena round entries
    induction entries with
    | nil => exact fun e _ => .refl e
    | cons entry entries ih =>
        intro e h
        obtain ⟨hentry, hrest⟩ := List.forall_mem_cons.mp h
        have hone := giveBack_refunded (s := s) q hentry round
        exact hone.trans (ih _ fun x hx => by rw [hone.still.owners]; exact hrest x hx)
  unfold refundOpenRounds
  induction liveArenas s generalizing e with
  | nil => exact .refl e
  | cons arena arenas ih => exact (hround arena _ _ e fun entry hentry => book_owner hentry).trans (ih _)

/-! ## What was written comes back -/

/-- The accounts are in order: what a process needs of those that it comes up with. -/
structure Orderly (s : Settings) (l : Ledger) : Prop where
  nonneg : l.Nonneg
  keyed : Keyed l
  bots : ∀ id a, l.get id = some a → a.isBot = true → id ∈ s.pool ∨ Born id
  retired : ∀ id a, l.get id = some a → a.retired = true → ':' ∈ id.toList
  empty : ∀ id, Retired l id → ∀ f, l.bal id f = 0
  ready : ∃ id ∈ s.pool, ∃ a, l.get id = some a ∧ a.isBot = true

/-- No round is being settled. -/
def Rested (e : State) : Prop := ∀ arena, e.phaseOf arena ≠ .settle

/-- The same without what only a thrifty process keeps. -/
structure Regular (s : Settings) (l : Ledger) : Prop where
  nonneg : l.Nonneg
  keyed : Keyed l
  bots : ∀ id a, l.get id = some a → a.isBot = true → id ∈ s.pool ∨ Born id
  retired : ∀ id a, l.get id = some a → a.retired = true → ':' ∈ id.toList

theorem Orderly.regular {l : Ledger} (h : Orderly s l) : Regular s l := ⟨h.nonneg, h.keyed, h.bots, h.retired⟩

theorem Sound.regular (hs : Sound s e) : Regular s e.ledger := ⟨hs.nonneg, hs.keyed, hs.bots, hs.retired⟩

theorem Sound.orderly (hs : Sound s e) (ht : Thrifty s e) : Orderly s e.ledger :=
  ⟨hs.nonneg, hs.keyed, hs.bots, hs.retired, ht.empty, ht.ready⟩

theorem Refunded.regular (h : Refunded s e e') (hs : Sound s e) : Regular s e'.ledger where
  nonneg := h.booked.nonneg hs.nonneg
  keyed := h.booked.keyed hs.keyed
  bots := by
    intro id a' ha' hbot
    rcases h.booked.bots id a' ha' hbot with ⟨a, ha, hbot⟩ | hborn
    · exact hs.bots id a ha hbot
    · exact .inr hborn
  retired := by
    intro id a' ha' hret
    rcases h.booked.retirees id a' ha' hret with ⟨a, ha, hret⟩ | hdead
    · exact hs.retired id a ha hret
    · exact hdead.elim

/-- The refund leaves retired bots alone, as none of them plays. -/
theorem Refunded.orderly (h : Refunded s e e') (hs : Sound s e) (ht : Thrifty s e) (hr : Rested e) : Orderly s e'.ledger where
  nonneg := (h.regular hs).nonneg
  keyed := (h.regular hs).keyed
  bots := (h.regular hs).bots
  retired := (h.regular hs).retired
  empty := by
    rintro id ⟨a', ha', hret⟩ f
    rcases h.booked.retirees id a' ha' hret with ⟨a, ha, hret⟩ | hdead
    · rw [h.others id (fun arena => ht.away id ⟨a, ha, hret⟩ arena (hr arena)) f]
      exact ht.empty id ⟨a, ha, hret⟩ f
    · exact hdead.elim
  ready := by
    obtain ⟨id, hid, a, ha, hbot⟩ := ht.ready
    obtain ⟨a', ha', hsk, -⟩ := h.credits id a ha
    exact ⟨id, hid, a', ha', (Account.Continues.of_skeleton hsk).2.1.trans hbot⟩

section
variable {l : Ledger} {a : Account}

@[simp]
theorem writeOff_isBot (a : Account) : (writeOff a).isBot = a.isBot := by
  unfold writeOff
  split
  · rfl
  extract_lets backed
  split <;> rfl

@[simp]
theorem writeOff_retired (a : Account) : (writeOff a).retired = a.retired := by
  unfold writeOff
  split
  · rfl
  extract_lets backed
  split <;> rfl

@[simp]
theorem writeOff_id (a : Account) : (writeOff a).id = a.id := by
  unfold writeOff
  split
  · rfl
  extract_lets backed
  split <;> rfl

theorem writeOff_continues (a : Account) : a.Continues (writeOff a) := by
  unfold writeOff
  split
  · exact .refl a
  extract_lets backed
  split
  · exact ⟨rfl, rfl, fun h => h, fun h => h, le_refl _, le_refl _⟩
  · exact .refl a

theorem writeOff_bot (h : a.isBot = true) : writeOff a = a := by simp [writeOff, h]

theorem writeOff_bal_nonneg (h : ∀ f, 0 ≤ a.bal f) (f : Field) : 0 ≤ (writeOff a).bal f := by
  unfold writeOff
  split
  · exact h f
  extract_lets backed
  split
  · dsimp only
    rw [Function.update_apply]
    split
    · exact le_max_left _ _
    · exact h f
  · exact h f

theorem writeOff_empty (h : ∀ f, a.bal f = 0) (f : Field) : (writeOff a).bal f = 0 := by
  have hback : (0 : ℚ) ≤ max 0 (a.depInSol - a.wOutSol) := le_max_left _ _
  unfold writeOff
  split
  · exact h f
  extract_lets backed
  split
  · next hlt =>
      rw [h .sol] at hlt
      have : 0 ≤ backed := hback
      linarith
  · exact h f

theorem values_ids (hk : Keyed l) : l.values.map (·.id) = l.entries.map Prod.fst := by
  rw [OrderedMap.values, List.map_map]
  refine List.map_congr_left fun kv hkv => ?_
  exact hk kv.1 kv.2 (OrderedMap.get_eq_some.mpr hkv)

theorem ids_nodup (hk : Keyed l) (p : Account → Bool) : ((l.values.filter p).map (·.id)).Nodup := by
  have hall : (l.values.map (·.id)).Nodup := values_ids hk ▸ l.keyed
  exact hall.sublist (List.filter_sublist.map _)

theorem restore_entries (hk : Keyed l) :
    (restore (l.values.filter hasActivity)).entries = (l.values.filter hasActivity).map fun a => (a.id, writeOff a) :=
  OrderedMap.entries_foldl_set (ids_nodup hk hasActivity)

theorem restore_get (hk : Keyed l) {b : Account} : (restore (l.values.filter hasActivity)).get id = some b ↔
    ∃ a, l.get id = some a ∧ hasActivity a = true ∧ writeOff a = b := by
  rw [OrderedMap.get_eq_some, restore_entries hk, List.mem_map]
  constructor
  · rintro ⟨a, ha, he⟩
    obtain ⟨hmem, hact⟩ := List.mem_filter.mp ha
    obtain ⟨k, hget⟩ := OrderedMap.mem_values.mp hmem
    obtain ⟨rfl, rfl⟩ := Prod.mk.inj he
    exact ⟨a, by rw [hk k a hget]; exact hget, hact, rfl⟩
  · rintro ⟨a, hget, hact, rfl⟩
    exact ⟨a, List.mem_filter.mpr ⟨OrderedMap.mem_values.mpr ⟨id, hget⟩, hact⟩, by rw [hk id a hget]⟩

/-- The pool wallets are house accounts, whatever they were. -/
theorem adopt_get (pool : List String) (l : Ledger) (id : String) :
    (adopt pool l).get id = (l.get id).map fun a => if id ∈ pool then { a with isBot := true } else a := by
  unfold adopt
  induction pool generalizing l with
  | nil => simp
  | cons k pool ih =>
      rw [List.foldl_cons, ih, Ledger.get_modify]
      cases h : l.get id with
      | none => by_cases hk : id = k <;> simp_all
      | some a =>
          by_cases hk : id = k
          · subst hk
            by_cases hid : id ∈ pool <;> simp [h, hid]
          · by_cases hid : id ∈ pool <;> simp [hk, hid]

theorem total_adopt {pool ids : List String} (hids : ∀ id ∈ ids, id ∈ pool) (l : Ledger) (f : Field) :
    total (house pool) (adopt ids l) f = total (house pool) l f := by
  unfold adopt
  induction ids generalizing l with
  | nil => rfl
  | cons k ids ih =>
      obtain ⟨hk, hrest⟩ := List.forall_mem_cons.mp hids
      rw [List.foldl_cons, ih hrest]
      unfold Ledger.modify
      split
      · next a ha =>
          rw [total, OrderedMap.sum_set ha, total]
          simp [house, hk]
      · rfl

theorem sum_filter_of_zero {α : Type} {p : α → Bool} {g : α → ℚ} {l : List α} (h : ∀ a ∈ l, p a = false → g a = 0) :
    ((l.filter p).map g).sum = (l.map g).sum := by
  induction l with
  | nil => rfl
  | cons a l ih =>
      obtain ⟨ha, hl⟩ := List.forall_mem_cons.mp h
      rw [List.filter_cons]
      cases hp : p a with
      | true => simp [ih hl]
      | false => simp [ih hl, ha hp]

/-- What was written holds the house money that was there, when no house wallet is written off. -/
theorem total_restore {pool : List String} (hn : l.Nonneg) (hk : Keyed l)
    (hpool : ∀ id ∈ pool, ∀ a, l.get id = some a → a.isBot = true ∨ writeOff a = a) (f : Field) :
    total (house pool) (restore (l.values.filter hasActivity)) f = total (house pool) l f := by
  have hright : total (house pool) l f = (l.values.map fun a => if house pool a.id a.isBot then a.bal f else 0).sum := by
    rw [total, OrderedMap.sum, OrderedMap.values, List.map_map]
    congr 1
    refine List.map_congr_left fun kv hkv => ?_
    have hid := hk kv.1 kv.2 (OrderedMap.get_eq_some.mpr hkv)
    simp [hid]
  rw [hright, total, OrderedMap.sum, restore_entries hk, List.map_map]
  have hmem : ∀ a ∈ l.values, l.get a.id = some a := by
    intro a ha
    obtain ⟨k, hget⟩ := OrderedMap.mem_values.mp ha
    rw [hk k a hget]
    exact hget
  have hsame : ∀ a ∈ l.values.filter hasActivity, (if house pool (writeOff a).id (writeOff a).isBot then (writeOff a).bal f else 0) =
      if house pool a.id a.isBot then a.bal f else 0 := by
    intro a ha
    have hget := hmem a (List.mem_filter.mp ha).1
    rw [writeOff_id, writeOff_isBot]
    split
    · next hhouse =>
        have hwhole : writeOff a = a := by
          rw [house, Bool.or_eq_true, List.contains_iff_mem] at hhouse
          rcases hhouse with hbot | hp
          · exact writeOff_bot hbot
          · exact (hpool a.id hp a hget).elim writeOff_bot id
        rw [hwhole]
    · rfl
  have hleft : ((l.values.filter hasActivity).map
      fun a => if house pool (writeOff a).id (writeOff a).isBot then (writeOff a).bal f else 0) =
      (l.values.filter hasActivity).map fun a => if house pool a.id a.isBot then a.bal f else 0 :=
    List.map_congr_left hsame
  simp only [writeOff_id] at hleft
  change ((l.values.filter hasActivity).map
    fun a => if house pool a.id (writeOff a).isBot then (writeOff a).bal f else 0).sum = _
  rw [hleft]
  -- who has no activity holds nothing
  refine sum_filter_of_zero fun a ha hact => ?_
  have hzero : a.bal f = 0 := by
    have h0 : 0 ≤ a.bal f := Ledger.bal_of_get (hmem a ha) ▸ hn a.id f
    simp only [hasActivity, Bool.or_eq_false_iff, decide_eq_false_iff_not, not_lt] at hact
    obtain ⟨⟨⟨⟨⟨⟨⟨⟨⟨-, hbull⟩, huwu⟩, hsol⟩, -⟩, -⟩, -⟩, -⟩, -⟩, -⟩ := hact
    cases f with
    | bull => exact le_antisymm hbull h0
    | uwu => exact le_antisymm huwu h0
    | sol => exact le_antisymm hsol h0
  simp [hzero]

end

/-- The accounts that a process comes up with. -/
def loaded (s : Settings) (l : Ledger) : Ledger := adopt s.pool (restore (l.values.filter hasActivity))

section
variable {l : Ledger}

theorem loaded_get (hk : Keyed l) {b : Account} : (loaded s l).get id = some b ↔
    ∃ a, l.get id = some a ∧ hasActivity a = true ∧
      b = if id ∈ s.pool then { writeOff a with isBot := true } else writeOff a := by
  rw [loaded, adopt_get, Option.map_eq_some_iff]
  constructor
  · rintro ⟨c, hc, rfl⟩
    obtain ⟨a, ha, hact, rfl⟩ := (restore_get hk).mp hc
    exact ⟨a, ha, hact, rfl⟩
  · rintro ⟨a, ha, hact, rfl⟩
    exact ⟨writeOff a, (restore_get hk).mpr ⟨a, ha, hact, rfl⟩, rfl⟩

/-- An account that something was done with goes on in the next process. -/
theorem loaded_continues (hk : Keyed l) {a : Account} (ha : l.get id = some a) (hact : hasActivity a = true) :
    ∃ b, (loaded s l).get id = some b ∧ a.Continues b := by
  refine ⟨_, (loaded_get hk).mpr ⟨a, ha, hact, rfl⟩, ?_⟩
  have hcont := writeOff_continues a
  split
  · exact ⟨hcont.id, hcont.born, fun _ => rfl, hcont.retired, hcont.games, hcont.dep⟩
  · exact hcont

theorem hasActivity_bot {a : Account} (h : a.isBot = true) : hasActivity a = true := by simp [hasActivity, h]

/-- What is loaded of an account is the account, but for SOL and for being the house's. -/
theorem loaded_retired (hk : Keyed l) {b : Account} (hb : (loaded s l).get id = some b) (hret : b.retired = true) :
    ∃ a, l.get id = some a ∧ a.retired = true ∧ ∀ f, b.bal f = (writeOff a).bal f := by
  obtain ⟨a, ha, -, rfl⟩ := (loaded_get hk).mp hb
  refine ⟨a, ha, ?_, fun f => ?_⟩
  · split at hret <;> simpa using hret
  · split <;> rfl

theorem loaded_regular (h : Regular s l) : Regular s (loaded s l) := by
  have hget : ∀ id b, (loaded s l).get id = some b ↔ _ := fun id b => loaded_get h.keyed
  refine ⟨fun id f => ?_, fun id b hb => ?_, fun id b hb hbot => ?_, fun id b hb hret => ?_⟩
  · cases hb : (loaded s l).get id with
    | none => rw [Ledger.bal_of_none hb]
    | some b =>
        rw [Ledger.bal_of_get hb]
        obtain ⟨a, ha, -, rfl⟩ := (hget id _).mp hb
        have h0 := writeOff_bal_nonneg (fun f => Ledger.bal_of_get ha ▸ h.nonneg id f) f
        split <;> exact h0
  · obtain ⟨a, ha, -, rfl⟩ := (hget id _).mp hb
    have hid := h.keyed id a ha
    split <;> simp [hid]
  · obtain ⟨a, ha, -, rfl⟩ := (hget id _).mp hb
    split at hbot
    · next hpool => exact .inl hpool
    · exact h.bots id a ha (by simpa using hbot)
  · obtain ⟨a, ha, hret, -⟩ := loaded_retired h.keyed hb hret
    exact h.retired id a ha hret

theorem loaded_orderly (h : Orderly s l) : Orderly s (loaded s l) := by
  have hregular := loaded_regular h.regular
  refine ⟨hregular.nonneg, hregular.keyed, hregular.bots, hregular.retired, ?_, ?_⟩
  · rintro id ⟨b, hb, hret⟩ f
    obtain ⟨a, ha, hret, hbal⟩ := loaded_retired h.keyed hb hret
    rw [Ledger.bal_of_get hb, hbal f]
    exact writeOff_empty (fun f => (Ledger.bal_of_get ha).symm.trans (h.empty id ⟨a, ha, hret⟩ f)) f
  · obtain ⟨id, hid, a, ha, hbot⟩ := h.ready
    exact ⟨id, hid, _, (loaded_get h.keyed).mpr ⟨a, ha, hasActivity_bot hbot, rfl⟩, by rw [if_pos hid]⟩

theorem loaded_absent (hk : Keyed l) (h : l.get id = none) : (loaded s l).get id = none := by
  cases hb : (loaded s l).get id with
  | none => rfl
  | some b =>
      obtain ⟨a, ha, -⟩ := (loaded_get hk).mp hb
      rw [h] at ha
      cases ha

theorem loaded_alive (hk : Keyed l) {arena : Arena} (h : Alive arena l id) : Alive arena (loaded s l) id := by
  obtain ⟨a, ha, hbot, hprefix, hret⟩ := h
  refine ⟨_, (loaded_get hk).mpr ⟨a, ha, hasActivity_bot hbot, rfl⟩, ?_, hprefix, ?_⟩
  · split <;> simp [hbot]
  · split <;> simp [hret]

end

/-! ## The process comes up -/

/-- The state of a process that has read the accounts and done nothing yet. -/
def came (s : Settings) (e : State) (b : BootDraw) : State where
  ledger := loaded s e.ledger
  two aid := freshLobby s.platform s.round (e.roundsByArena (.two aid) + 1) (b.lobby (.two aid))
  many aid := freshLobby s.platform s.round (e.roundsByArena (.many aid) + 1) (b.lobby (.many aid))
  seq := 0
  prices := OrderedMap.empty
  matchedBook := OrderedMap.empty
  botScanOffset := 0
  roundsByArena := e.roundsByArena
  boot := e.boot + 1
  flows := e.flows
  settled := []
  payments := []
  forgotten := []

theorem start_eq (s : Settings) (e : State) (b : BootDraw) :
    start s (snapshot e) e b = (liveArenas s).foldl (seedArena s b) (pruneOrphans s (came s e b)) := rfl

section
variable {b : BootDraw}

theorem came_lobby (s : Settings) (e : State) (b : BootDraw) (arena : Arena) :
    (came s e b).phaseOf arena = .lobby ∧ (came s e b).owners arena = [] := by
  cases arena <;> exact ⟨rfl, rfl⟩

theorem came_sound (h : Regular s e.ledger) (b : BootDraw) : Sound s (came s e b) := by
  have hl := loaded_regular h
  refine ⟨hl.nonneg, hl.keyed, hl.bots, hl.retired, fun aid => ?_, fun aid => ?_⟩
  · exact ⟨fun _ hen => (List.not_mem_nil hen).elim, List.nodup_nil, fun _ hen => (List.not_mem_nil hen).elim,
      fun hbattle => by cases hbattle⟩
  · exact ⟨fun _ hen => (List.not_mem_nil hen).elim, List.nodup_nil, fun _ hen => (List.not_mem_nil hen).elim,
      fun hbattle => by cases hbattle⟩

theorem came_thrifty (h : Orderly s e.ledger) (b : BootDraw) : Thrifty s (came s e b) where
  empty := (loaded_orderly h).empty
  away := fun id _ arena _ howner => by
    rw [(came_lobby s e b arena).2] at howner
    cases howner
  ready := (loaded_orderly h).ready

/-! ## Seeding -/

/-- An arena has the bots that a start asks for. -/
def Stocked (s : Settings) (l : Ledger) : Arena → Prop
  | .two aid => liveBots (.two aid) l ≠ []
  | .many aid => s.SEED_BOTS ≤ (liveBots (.many aid) l).length

/-- No account has a number of this arena. -/
def Unclaimed (arena : Arena) (l : Ledger) : Prop := ∀ n, 0 < n → l.get (botId arena.text n) = none

theorem Stocked.mono {l l' : Ledger} {arena : Arena} (h : Stocked s l arena) (hk : Keyed l) (hk' : Keyed l')
    (hlive : ∀ id, Alive arena l id → Alive arena l' id) : Stocked s l' arena := by
  have hsub : liveBots arena l ⊆ liveBots arena l' := fun id hid =>
    (mem_liveBots hk').mpr (hlive id ((mem_liveBots hk).mp hid))
  have hle : (liveBots arena l).length ≤ (liveBots arena l').length :=
    ((ids_nodup hk (isArenaBot arena.text)).subperm hsub).length_le
  cases arena with
  | two aid => exact List.ne_nil_of_length_pos ((List.length_pos_of_ne_nil h).trans_le hle)
  | many aid => exact le_trans h hle

theorem seedArena_quiet {arena : Arena} (h : Stocked s e.ledger arena) : Quiet e (seedArena s b e arena) := by
  have hscan := botsFor_quiet e arena.text
  have hlen := (botsFor_perm e arena).length_eq
  cases arena with
  | two aid =>
      change Quiet e (botsFor e aid.text).2 at hscan
      change (botsFor e aid.text).1.length = _ at hlen
      rw [seedArena]
      rcases hbots : botsFor e aid.text with ⟨bots, e₁⟩
      rw [hbots] at hscan hlen
      dsimp only at hscan hlen ⊢
      rwa [if_neg]
      rw [hlen, List.length_eq_zero_iff]
      exact h
  | many aid =>
      change Quiet e (botsFor e aid.text).2 at hscan
      change (botsFor e aid.text).1.length = _ at hlen
      have hneg : ¬((botsFor e aid.text).1.length : ℤ) < (s.SEED_BOTS : ℤ) := by
        rw [hlen]
        exact not_lt.mpr (Int.ofNat_le.mpr h)
      have hstep : seedArena s b e (.many aid) = (botsFor e aid.text).2 := by
        rw [seedArena, populateN]
        rcases hbots : botsFor e aid.text with ⟨bots, e₁⟩
        rw [hbots] at hneg
        exact if_neg hneg
      rwa [hstep]

theorem Unclaimed.acts {K : Kind → Prop} {arena : Arena} (h : Unclaimed arena e.ledger) (hs : Sound s e)
    (hacts : Acts s K e e') (hplayer : ∀ k, K k → ∀ m, k ≠ .player m) (hnew : ∀ k, K k → k ≠ .newBot arena) :
    Unclaimed arena e'.ledger := by
  refine (hacts.keep (P := fun e => Unclaimed arena e.ledger) hs (fun k e e' hk hs hact h n hn => ?_) h).2
  refine hact.absent hs (hplayer k hk) ?_ (colon_mem_botId arena n) (h n hn)
  rintro arena' rfl he
  exact hnew _ hk (by rw [(botId_inj he).1])

theorem liveArenas_nodup (s : Settings) : (liveArenas s).Nodup := allArenas_nodup.filter _

/-- A start is sound on any regular ledger. -/
theorem start_sound (h : Regular s e.ledger) (b : BootDraw) : Sound s (start s (snapshot e) e b) := by
  have hs := came_sound h b
  rw [start_eq]
  have hs₁ := (pruneOrphans_acts hs).sound hs
  generalize pruneOrphans s (came s e b) = e₁ at hs₁
  induction liveArenas s generalizing e₁ with
  | nil => exact hs₁
  | cons arena arenas ih =>
      rw [List.foldl_cons]
      exact ih _ ((seedArena_acts b e₁ arena).sound hs₁)

/-- A start makes bots only where it has room for them, and then wastes nothing. -/
theorem start_thrifty (hreal : s.FAKE_BANK_OK = false) (h : Orderly s e.ledger) (b : BootDraw)
    (hroom : ∀ arena ∈ liveArenas s, Stocked s e.ledger arena ∨ Unclaimed arena e.ledger) :
    Sound s (start s (snapshot e) e b) ∧ Thrifty s (start s (snapshot e) e b) ∧
      Booked s.pool (fun _ => True) (came s e b) (start s (snapshot e) e b) ∧
      ∀ arena, (start s (snapshot e) e b).phaseOf arena = .lobby := by
  have hs₀ := came_sound h.regular b
  have hidle₀ : ∀ arena, (came s e b).owners arena = [] := fun arena => (came_lobby s e b arena).2
  have hroom₀ : ∀ arena ∈ liveArenas s, Stocked s (came s e b).ledger arena ∨ Unclaimed arena (came s e b).ledger := by
    intro arena harena
    refine (hroom arena harena).imp (fun hst => ?_) fun hun n hn => loaded_absent h.keyed (hun n hn)
    exact hst.mono h.keyed hs₀.keyed fun id hid => loaded_alive h.keyed hid
  -- the orphans
  have hprune := pruneOrphans_acts (s := s) hs₀
  obtain ⟨hs₁, ht₁, hb₁, -⟩ := hprune.thrifty hs₀ (came_thrifty h b)
    (P := fun e => ∀ arena, e.owners arena = []) (by
      rintro k e e' ⟨id, rfl, -⟩ hs hact hidle
      refine ⟨fun arena _ howner => ?_, fun arena => ?_⟩
      · rw [hidle arena] at howner
        cases howner
      · rw [(hact.still trivial).owners, hidle]) hidle₀
  have hstill₁ := hprune.still fun k ⟨id, hk, _⟩ => hk ▸ trivial
  have hroom₁ : ∀ arena ∈ liveArenas s, Stocked s (pruneOrphans s (came s e b)).ledger arena ∨
      Unclaimed arena (pruneOrphans s (came s e b)).ledger := by
    intro arena harena
    refine (hroom₀ arena harena).imp (fun hst => ?_) fun hun => ?_
    · refine hst.mono hs₀.keyed hs₁.keyed fun id hid => ?_
      obtain ⟨n, rfl⟩ := hid.born hs₀
      refine hprune.alive hs₀ hid ?_
      rintro k ⟨id', rfl, hout⟩ hdead
      rw [← show botId arena.text n = id' from hdead, firstPart_botId] at hout
      exact hout (List.mem_map_of_mem harena)
    · exact hun.acts hs₀ hprune (fun k ⟨id, hk, _⟩ m => by rw [hk]; simp) fun k ⟨id, hk, _⟩ => by rw [hk]; simp
  have hlobby₁ : ∀ arena, (pruneOrphans s (came s e b)).phaseOf arena = .lobby := fun arena =>
    (hstill₁.samePhase arena).1.trans (came_lobby s e b arena).1
  rw [start_eq]
  have hnodup := liveArenas_nodup s
  generalize pruneOrphans s (came s e b) = e₁ at hs₁ ht₁ hb₁ hroom₁ hlobby₁
  -- one arena after the other, each with its room still there
  clear hroom hroom₀ hprune hstill₁
  generalize liveArenas s = arenas at hroom₁ hnodup
  induction arenas generalizing e₁ with
  | nil => exact ⟨hs₁, ht₁, hb₁, hlobby₁⟩
  | cons arena arenas ih =>
      obtain ⟨hnot, hnodup⟩ := List.nodup_cons.mp hnodup
      obtain ⟨harena, hrest⟩ := List.forall_mem_cons.mp hroom₁
      rw [List.foldl_cons]
      have hacts : Acts s (Seeding arena) e₁ (seedArena s b e₁ arena) := seedArena_acts b e₁ arena
      have hstill := hacts.still fun k hk => by rcases hk with rfl | rfl <;> trivial
      have hstep : Sound s (seedArena s b e₁ arena) ∧ Thrifty s (seedArena s b e₁ arena) ∧
          Booked s.pool (fun _ => True) e₁ (seedArena s b e₁ arena) := by
        rcases harena with hst | hun
        · have hquiet : Acts s Housekeeping e₁ (seedArena s b e₁ arena) := .quiet rfl (seedArena_quiet hst)
          obtain ⟨hs, ht, hb, -⟩ := hquiet.thrifty hs₁ ht₁ (P := fun _ => True)
            (fun k e e' hk _ _ _ => ⟨by rw [show k = .house from hk]; trivial, trivial⟩) trivial
          exact ⟨hs, ht, hb⟩
        · obtain ⟨hs, ht, hb, -⟩ := hacts.thrifty hs₁ ht₁ (P := Ahead arena) (by
            intro k e e' hk hs hact ha
            have hplayer : ∀ m, k ≠ .player m := fun m => by rcases hk with rfl | rfl <;> simp
            refine ⟨?_, hact.ahead hs hplayer ha⟩
            rcases hk with rfl | rfl
            · trivial
            · exact ⟨hreal, ha _ (Nat.lt_succ_self _)⟩) fun n hn => hun n (Nat.zero_lt_of_lt hn)
          exact ⟨hs, ht, hb⟩
      obtain ⟨hs₂, ht₂, hb₂⟩ := hstep
      refine ih _ hs₂ ht₂ ((hb₁.trans hb₂).mono fun _ _ => trivial) ?_ ?_ hnodup
      · exact fun arena' => (hstill.samePhase arena').1.trans (hlobby₁ arena')
      · intro arena' harena'
        have hne : arena' ≠ arena := fun heq => hnot (heq ▸ harena')
        refine (hrest arena' harena').imp (fun hst => ?_) fun hun => ?_
        · refine hst.mono hs₁.keyed hs₂.keyed fun id hid => hacts.alive hs₁ hid fun k hk => ?_
          rcases hk with rfl | rfl <;> exact fun hf => hf
        · refine hun.acts hs₁ hacts (fun k hk m => ?_) fun k hk => ?_
          · rcases hk with rfl | rfl <;> simp
          · rcases hk with rfl | rfl
            · simp
            · simpa using hne.symm

end

end BullsUnicorns.Engine
