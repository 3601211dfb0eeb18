import BullsUnicorns.Identity.Ingest
import BullsUnicorns.Identity.Lemmas.MemoryRegister
import BullsUnicorns.Identity.Lemmas.PgRegister

/-!
# The register over every run

What holds of a store that refines the register after any acts, what holds besides when no picture
lands on a row that has no picture URL, and that the two stores then go through one history.
-/

namespace BullsUnicorns.Identity

variable {σ : Type}

namespace RegisterStore

variable (S : RegisterStore σ)

/-! ## What is promised -/

/-- What holds after any acts. -/
structure Safe (acts : List SiteAct) : Prop where
  oneRowPerXId : ((S.rows (S.reached acts).store).map RegisterRow.xId).Nodup
  oneRowPerWallet : ((S.rows (S.reached acts).store).map RegisterRow.wallet).Nodup
  /-- A link removes no other account's row. -/
  linkKeeps : ∀ w identity t, ∀ r ∈ S.rows (S.reached acts).store, r.xId ≠ identity.xId →
    r ∈ S.rows (S.perform (S.reached acts).store (.link w identity t)).2
  linkFlag : ∀ w identity t, ∀ r ∈ S.rows (S.reached acts).store,
    ∀ r' ∈ S.rows (S.perform (S.reached acts).store (.link w identity t)).2, r'.xId = r.xId →
      r'.suppressed = r.suppressed
  linkedAt : ∀ a, ∀ r ∈ S.rows (S.reached acts).store, ∀ r' ∈ S.rows (S.siteStep (S.reached acts) a).1.store,
    r'.xId = r.xId → r'.linkedAt ≠ r.linkedAt → r'.wallet ≠ r.wallet
  whole : ∀ r ∈ S.rows (S.reached acts).store,
    (r.avatarHash.isSome ∧ r.avatarBytes.isSome ∧ r.avatarAt.isSome) ∨
      (r.avatarHash = none ∧ r.avatarBytes = none ∧ r.avatarAt = none)
  /-- From a suppression that took effect until the id is restored, nothing shows it. -/
  suppression : ∀ before after x, acts = before ++ .statement (.setSuppressed x true) :: after →
    (S.perform (S.reached before).store (.setSuppressed x true)).1 = .found true →
    SiteAct.statement (.setSuppressed x false) ∉ after → ∀ wallets hash,
      x ∉ (S.links.findByWallets wallets (S.reached acts).store).map LinkRow.xId ∧
        S.links.findAvatar x hash (S.reached acts).store = none

end RegisterStore

/-- An act that both stores judge alike, and a picture that lands where there is a URL and is one the
columns take. -/
def Orderly (s : Site PgDb) (a : SiteAct) : Prop :=
  match RegisterStore.statementOf s a with
  | some (.link w identity t) =>
      if memoryStorable w identity then pgTakes (.link w identity t) = true
      else pgTakes (.link w identity t) = false ∨
        pgStorable w identity = false ∧ ∀ r ∈ pgRegister.rows s.store, r.wallet = w → r.xId = identity.xId
  | some (.putAvatar x hash bytes t) =>
      pgTakes (.putAvatar x hash bytes t) = true ∧ ∀ r ∈ pgRegister.rows s.store, r.xId = x →
        r.avatarUrl ≠ none ∧ avatarHashRe hash = true ∧ avatarBytesOk bytes = true
  | some act => pgTakes act = true
  | none => ∀ x, a = .find x → pgText x = true

namespace Refinement

variable {S : RegisterStore σ} {p : Register.Policy} (ref : Refinement S p)

/-- The register after an act of a site. -/
theorem site_step (s : Site σ) (a : SiteAct) (h : (ref.view s.store).Sound) :
    (∃ act, RegisterStore.statementOf s a = some act ∧
      (S.siteStep s a).2 = ((ref.view s.store).step p act).1 ∧
      ref.view (S.siteStep s a).1.store = ((ref.view s.store).step p act).2) ∨
    (RegisterStore.statementOf s a = none ∧ (S.siteStep s a).2 = .found false ∧
      (S.siteStep s a).1.store = s.store) := by
  unfold RegisterStore.siteStep
  cases hact : RegisterStore.statementOf s a with
  | some act =>
      obtain ⟨hanswer, hview⟩ := ref.step s.store act h
      exact Or.inl ⟨act, rfl, hanswer, hview⟩
  | none => exact Or.inr ⟨rfl, rfl, rfl⟩

theorem sound_step (s : Site σ) (a : SiteAct) (h : (ref.view s.store).Sound) :
    (ref.view (S.siteStep s a).1.store).Sound := by
  rcases ref.site_step s a h with ⟨act, -, -, hview⟩ | ⟨-, -, hstore⟩
  · rw [hview]
    exact Register.step_sound p h act
  · rw [hstore]
    exact h

theorem sound_reached (acts : List SiteAct) : (ref.view (S.reached acts).store).Sound := by
  induction acts using List.reverseRecOn with
  | nil =>
      rw [RegisterStore.reached_nil, ref.empty]
      exact Register.empty_sound
  | append_singleton acts a ih =>
      rw [RegisterStore.reached_snoc]
      exact ref.sound_step _ a ih

theorem mem_rows {s : σ} (h : (ref.view s).Sound) {r : RegisterRow} :
    r ∈ S.rows s ↔ (ref.view s).row r.xId = some r := by
  rw [(ref.rows s h).2]
  exact ⟨fun ⟨x, hx⟩ => h.keyed x r hx ▸ hx, fun hr => ⟨r.xId, hr⟩⟩

theorem rows_wallets {s : σ} (h : (ref.view s).Sound) : ((S.rows s).map RegisterRow.wallet).Nodup := by
  refine List.Nodup.map_on ?_ (List.Nodup.of_map _ (ref.rows s h).1)
  intro r hr r' hr' hw
  rw [ref.mem_rows h] at hr hr'
  have hx := h.wallets r.wallet r.xId r'.xId ⟨r, hr, rfl⟩ ⟨r', hr', hw.symm⟩
  rw [hx, hr', Option.some.injEq] at hr
  exact hr.symm

/-- A row and what it became under one statement. -/
theorem row_steady {R : Register} {act : RegisterAct} {x : String} {r r' : RegisterRow}
    (hr : R.row x = some r) (hr' : (R.step p act).2.row x = some r') (hw : r'.wallet = r.wallet) :
    r'.linkedAt = r.linkedAt := by
  rcases Register.row_after hr' with ⟨w, identity, t, -, -, -, -, -, hmoved⟩ | ⟨-, r'', hr'', -, hat, -⟩
  · have hm := hmoved r hr
    rw [hm] at hw ⊢
    have hw : w = r.wallet := hw
    simp [Register.linkedRow, hw]
  · rw [hr, Option.some.injEq] at hr''
    rw [hat, hr'']

theorem link_row {R : Register} (w : String) (identity : XIdentity) (t : ℤ) {r : RegisterRow} {x : String}
    (hr : R.row x = some r) (hx : x ≠ identity.xId) :
    (R.step p (.link w identity t)).2.row x = some r := by
  rcases Register.step_link p R w identity t with ⟨-, -, hlink⟩ | ⟨-, hsame⟩
  · rw [hlink]
    exact (Function.update_of_ne hx _ _).trans hr
  · rwa [hsame]

theorem link_flag {R : Register} (w : String) (identity : XIdentity) (t : ℤ) {r r' : RegisterRow} {x : String}
    (hr : R.row x = some r) (hr' : (R.step p (.link w identity t)).2.row x = some r') :
    r'.suppressed = r.suppressed := by
  rcases Register.step_link p R w identity t with ⟨hlinked, -⟩ | ⟨-, hsame⟩
  · rcases Register.row_after hr' with ⟨w, identity, t, -, -, -, -, -, hmoved⟩ | ⟨hne, -⟩
    · rw [hmoved r hr]
      rfl
    · rw [link_row w identity t hr (hne w identity t rfl hlinked), Option.some.injEq] at hr'
      rw [hr']
  · rw [hsame, hr, Option.some.injEq] at hr'
    rw [hr']

/-- An id that is taken down is shown by no read. -/
theorem hidden {s : σ} {x : String} (h : (ref.view s).Sound) (hx : (ref.view s).takenDown x)
    (wallets : List String) (hash : String) :
    x ∉ (S.links.findByWallets wallets s).map LinkRow.xId ∧ S.links.findAvatar x hash s = none := by
  constructor
  · rw [ref.findByWallets s wallets h]
    simp only [List.mem_map, List.mem_filter, not_exists, not_and]
    rintro _ ⟨r, ⟨hr, hshown⟩, rfl⟩ hrx
    have hrow := (ref.mem_rows h).mp hr
    have hxId : r.xId = x := hrx
    have hflag := (h.flag r.xId r hrow).mpr (hxId ▸ hx)
    simp [hflag] at hshown
  · rw [ref.findAvatar s x hash h]
    cases hrow : (ref.view s).row x with
    | none => rfl
    | some r => simp [Option.filter, (h.flag x r hrow).mpr hx]

theorem takenDown_run {x : String} (before after : List SiteAct) (hx : (ref.view (S.reached before).store).takenDown x)
    (hafter : SiteAct.statement (.setSuppressed x false) ∉ after) :
    (ref.view (S.reached (before ++ after)).store).takenDown x := by
  induction after using List.reverseRecOn with
  | nil => simpa using hx
  | append_singleton after a ih =>
      rw [List.mem_append, not_or] at hafter
      have ih := ih hafter.1
      rw [← List.append_assoc, RegisterStore.reached_snoc]
      rcases ref.site_step _ a (ref.sound_reached (before ++ after)) with ⟨act, hact, -, hview⟩ | ⟨-, -, hstore⟩
      · rw [hview]
        refine Register.takenDown_after ih fun he => ?_
        subst he
        -- only the statement itself restores an id
        cases a with
        | statement a =>
            cases hact
            exact hafter.2 (List.mem_singleton.mpr rfl)
        | find y => cases hact
        | fetched k picture t =>
            simp only [RegisterStore.statementOf] at hact
            split at hact
            · cases hact
            · cases hact
      · rw [hstore]
        exact ih

theorem suppression (before after : List SiteAct) {x : String}
    (heffect : (S.perform (S.reached before).store (.setSuppressed x true)).1 = .found true)
    (hafter : SiteAct.statement (.setSuppressed x false) ∉ after) :
    (ref.view (S.reached (before ++ .statement (.setSuppressed x true) :: after)).store).takenDown x := by
  have hs := ref.sound_reached before
  obtain ⟨hanswer, hview⟩ := ref.step (S.reached before).store (.setSuppressed x true) hs
  rw [heffect] at hanswer
  have htakes : p.takes (.setSuppressed x true) = true := by
    by_contra huntaken
    rw [Register.step_untaken (by simpa using huntaken)] at hanswer
    cases hanswer
  rw [Register.step_taken htakes] at hanswer hview
  have hrow : ((ref.view (S.reached before).store).row x).isSome = true := by
    simpa [Register.act] using hanswer.symm
  have hdown : (ref.view (S.reached (before ++ [.statement (.setSuppressed x true)])).store).takenDown x := by
    rw [RegisterStore.reached_snoc]
    show (ref.view (S.perform (S.reached before).store (.setSuppressed x true)).2).takenDown x
    rw [hview]
    simp [Register.act, Register.setSuppressed, hrow]
  have hrun := ref.takenDown_run _ after hdown hafter
  rwa [List.append_assoc, List.singleton_append] at hrun

include ref in
/-- A store that refines the register keeps its promises on every run. -/
theorem safe (acts : List SiteAct) : S.Safe acts := by
  have hs := ref.sound_reached acts
  have hlink : ∀ w identity t, (ref.view (S.perform (S.reached acts).store (.link w identity t)).2).Sound := by
    intro w identity t
    rw [(ref.step _ _ hs).2]
    exact Register.step_sound p hs _
  refine ⟨(ref.rows _ hs).1, ref.rows_wallets hs, ?_, ?_, ?_, ?_, ?_⟩
  · intro w identity t r hr hx
    rw [ref.mem_rows (hlink w identity t), (ref.step _ _ hs).2]
    exact link_row w identity t ((ref.mem_rows hs).mp hr) hx
  · intro w identity t r hr r' hr' hx
    rw [ref.mem_rows (hlink w identity t), (ref.step _ _ hs).2, hx] at hr'
    exact link_flag w identity t ((ref.mem_rows hs).mp hr) hr'
  · intro a r hr r' hr' hx hat hw
    rw [ref.mem_rows (ref.sound_step _ a hs), hx] at hr'
    rw [ref.mem_rows hs] at hr
    rcases ref.site_step (S.reached acts) a hs with ⟨act, -, -, hview⟩ | ⟨-, -, hstore⟩
    · rw [hview] at hr'
      exact hat (row_steady hr hr' hw)
    · rw [hstore, hr, Option.some.injEq] at hr'
      exact hat (by rw [hr'])
  · intro r hr
    obtain ⟨h1, h2⟩ := hs.whole r.xId r ((ref.mem_rows hs).mp hr)
    cases hb : r.avatarBytes with
    | none =>
        rw [hb] at h1 h2
        exact Or.inr ⟨by simpa using h1, rfl, by simpa using h2.symm⟩
    | some bytes =>
        rw [hb] at h1 h2
        exact Or.inl ⟨h1, rfl, h2.symm⟩
  · rintro before after x rfl heffect hafter wallets hash
    exact ref.hidden hs (ref.suppression before after heffect hafter) wallets hash

end Refinement

/-! ## The two stores side by side -/

/-- Both stores stand at one sound register with the same ingestions in flight. -/
structure Level (s : Site PgDb) (s' : Site MemoryLinkStore) : Prop where
  sound : (pgRefinement.view s.store).Sound
  view : pgRefinement.view s.store = memoryRefinement.view s'.store
  fetching : s.fetching = s'.fetching

theorem memoryStorable_pgStorable {w : String} {identity : XIdentity} (h : memoryStorable w identity = true) :
    pgStorable w identity = true := by
  simp only [memoryStorable, pgStorable, Bool.and_eq_true, decide_eq_true_eq] at h ⊢
  obtain ⟨⟨⟨⟨h1, h2⟩, h3⟩, h4⟩, h5⟩ := h
  exact ⟨⟨⟨⟨h1, h3⟩, h2⟩, (charLength_le_utf16Length _).trans h4⟩, h5⟩

/-- The two policies take an orderly act alike. -/
theorem policies_agree {s : Site PgDb} (h : (pgRefinement.view s.store).Sound) {a : SiteAct} {act : RegisterAct}
    (hact : RegisterStore.statementOf s a = some act) (ho : Orderly s a) :
    (pgRefinement.view s.store).step pgPolicy act = (pgRefinement.view s.store).step memoryPolicy act := by
  simp only [Orderly, hact] at ho
  rw [Register.step_taken (p := memoryPolicy) rfl]
  cases act with
  | link w identity t =>
      by_cases hm : memoryStorable w identity = true
      · have htakes : pgTakes (.link w identity t) = true := by simpa [hm] using ho
        rw [Register.step_taken htakes, Register.act, Register.act]
        simp [pgPolicy, memoryPolicy, hm, memoryStorable_pgStorable hm]
      · replace ho : pgTakes (.link w identity t) = false ∨ pgStorable w identity = false ∧
            ∀ r ∈ pgRegister.rows s.store, r.wallet = w → r.xId = identity.xId := by simpa [hm] using ho
        have hmemory : (pgRefinement.view s.store).act memoryPolicy (.link w identity t) =
            (.refused, pgRefinement.view s.store) := by
          simp [Register.act, Register.answered, memoryPolicy, hm]
        rw [hmemory]
        rcases ho with huntaken | ⟨hp, hfree⟩
        · exact Register.step_untaken huntaken
        · have hunworn : ¬ (pgRefinement.view s.store).Taken w identity.xId := by
            rintro ⟨x, hx, r, hr, hw⟩
            have hk := h.keyed x r hr
            exact hx (hk ▸ hfree r ((pgRefinement.mem_rows h).mpr (hk.symm ▸ hr)) hw)
          simp [Register.step, Register.act, Register.answered, pgPolicy, Register.taken_eq_false.mpr hunworn, hp]
  | unlink w => exact Register.step_taken ho
  | setSuppressed x b => exact Register.step_taken ho
  | putAvatar x hash bytes t =>
      rw [Register.step_taken ho.1]
      simp only [Register.act, pgPolicy, memoryPolicy]
      cases hrow : (pgRefinement.view s.store).row x with
      | none => rfl
      | some r =>
          have hk := h.keyed x r hrow
          obtain ⟨-, hh, hb⟩ := ho.2 r ((pgRefinement.mem_rows h).mpr (hk.symm ▸ hrow)) hk
          simp [hh, hb]

theorem statementOf_congr {s : Site PgDb} {s' : Site MemoryLinkStore} (h : s.fetching = s'.fetching) (a : SiteAct) :
    RegisterStore.statementOf s a = RegisterStore.statementOf s' a := by
  cases a with
  | statement a => rfl
  | find x => rfl
  | fetched k picture t => simp only [RegisterStore.statementOf, h]

theorem Level.step {s : Site PgDb} {s' : Site MemoryLinkStore} (h : Level s s') {a : SiteAct} (ho : Orderly s a) :
    Level (pgRegister.siteStep s a).1 (memoryRegister.siteStep s' a).1 ∧
      (pgRegister.siteStep s a).2 = (memoryRegister.siteStep s' a).2 := by
  have hsound' : (memoryRefinement.view s'.store).Sound := h.view ▸ h.sound
  have hfetch : pgRegister.fetchingAfter s a = memoryRegister.fetchingAfter s' a := by
    cases a with
    | statement a => exact h.fetching
    | find x =>
        simp only [RegisterStore.fetchingAfter, pgRefinement.findForIngest s.store x h.sound,
          memoryRefinement.findForIngest s'.store x hsound', h.view, h.fetching]
    | fetched k picture t => simp only [RegisterStore.fetchingAfter, h.fetching]
  have hfetching : (pgRegister.siteStep s a).1.fetching = (memoryRegister.siteStep s' a).1.fetching := by
    unfold RegisterStore.siteStep
    split <;> split <;> exact hfetch
  have hsame := statementOf_congr h.fetching a
  rcases pgRefinement.site_step s a h.sound with ⟨act, hact, hanswer, hview⟩ | ⟨hact, hanswer, hstore⟩
  · rcases memoryRefinement.site_step s' a hsound' with ⟨act', hact', hanswer', hview'⟩ | ⟨hact', -, -⟩
    · rw [hact, hact', Option.some.injEq] at hsame
      subst hsame
      have hp := policies_agree h.sound hact ho
      rw [← h.view, ← hp] at hanswer' hview'
      exact ⟨⟨pgRefinement.sound_step s a h.sound, hview.trans hview'.symm, hfetching⟩,
        hanswer.trans hanswer'.symm⟩
    · rw [hact, hact'] at hsame
      cases hsame
  · rcases memoryRefinement.site_step s' a hsound' with ⟨act', hact', -, -⟩ | ⟨-, hanswer', hstore'⟩
    · rw [hact, hact'] at hsame
      cases hsame
    · refine ⟨⟨pgRefinement.sound_step s a h.sound, ?_, hfetching⟩, hanswer.trans hanswer'.symm⟩
      rw [hstore, hstore', h.view]

end BullsUnicorns.Identity
