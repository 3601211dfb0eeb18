import BullsUnicorns.Lib.Text
import BullsUnicorns.Lib.History
import BullsUnicorns.Identity.Lemmas.RateRows

/-!
# The rate limiter over whole runs

Every verdict of a run of `enforceRateLimit`, in the order in which the calls were counted: what it counted,
and when that is all that there was to count.
-/

namespace BullsUnicorns.Identity

open FixedWindow History

/-- One call. A wallet that reaches the limiter has been decoded from base58. -/
structure RateCall where
  wallet : String
  network : String
  nowSec : ℤ
  base58 : wallet.toList.all isBase58Char = true

namespace RateCall

variable (c : RateCall)

def window : ℤ := windowStart c.nowSec

def pairText : String := BucketKind.wallet.label ++ ":" ++ (c.network ++ "|" ++ c.wallet)

def networkText : String := BucketKind.network.label ++ ":" ++ c.network

/-- The texts under the HMAC. -/
def texts : List String := [c.pairText, c.networkText]

def ofNetwork (network : String) (c : RateCall) : Bool := c.network = network

def ofPair (network wallet : String) (c : RateCall) : Bool := c.network = network && c.wallet = wallet

variable {c} {c' : RateCall}

theorem pairText_ne_networkText : c.pairText ≠ c'.networkText := by
  intro h
  have hlist := congrArg String.toList h
  simp [pairText, networkText, BucketKind.label] at hlist

theorem networkText_inj : c.networkText = c'.networkText ↔ c.network = c'.network := by
  constructor
  · intro h
    have hlist := congrArg String.toList h
    simp only [networkText, String.toList_append, List.append_cancel_left_eq] at hlist
    exact String.toList_inj.mp hlist
  · intro h
    rw [networkText, networkText, h]

/-- The bar is in no wallet, so the pair is read back from its text. -/
theorem pairText_inj : c.pairText = c'.pairText ↔ c.network = c'.network ∧ c.wallet = c'.wallet := by
  constructor
  · intro h
    have hbar (c : RateCall) : '|' ∉ c.wallet.toList := fun hmem => by
      have hchar := List.all_eq_true.mp c.base58 '|' hmem
      revert hchar
      decide
    have hlist := congrArg String.toList h
    simp only [pairText, String.toList_append, List.append_assoc, List.append_cancel_left_eq] at hlist
    obtain ⟨hnetwork, hwallet⟩ := Delimit.after_sep_inj (hbar c) (hbar c') hlist
    exact ⟨String.toList_inj.mp hnetwork, String.toList_inj.mp hwallet⟩
  · rintro ⟨hnetwork, hwallet⟩
    rw [pairText, pairText, hnetwork, hwallet]

end RateCall

/-! ## One call -/

/-- The windows of some calls, in order. -/
def windows (p : RateCall → Bool) (calls : List RateCall) : List ℤ := (calls.filter p).map RateCall.window

/-- The verdict on two counts. -/
def judge (walletHits networkHits : ℕ) (nowSec : ℤ) : RateVerdict :=
  if limitPerWallet < walletHits ∨ limitPerNetwork < networkHits then
    .limited (max 1 (windowStart nowSec + windowSeconds - nowSec))
  else .ok

/-- The world beside the counter is not asked. -/
def countingOnly : Outside := ⟨none, .rejected .keysUnavailable, ⟨[], true⟩⟩

variable {σ : Type} {W : WriteStore σ} {d : WriteDeps}

def limiter (W : WriteStore σ) (d : WriteDeps) : Machine σ RateCall (Except StoreError RateVerdict) Empty where
  step s c :=
    let (verdict, s) := Task.perform (W.serve countingOnly) (enforceRateLimit d c.wallet c.network c.nowSec) s
    .ok (s, verdict)

abbrev Judged := RateCall × Except StoreError RateVerdict

/-- The calls of a run with their verdicts. -/
def judgements (W : WriteStore σ) (d : WriteDeps) (calls : List RateCall) : List Judged :=
  (limiter W d).accepted W.empty calls

/-- What the handler makes of the counter's answer, whatever it is. -/
def verdictOf (answer : Except StoreError (List ℕ)) (nowSec : ℤ) : Except StoreError RateVerdict :=
  match answer with
  | .ok [walletHits, networkHits] => .ok (judge walletHits networkHits nowSec)
  | .ok counts => .error ⟨"rate limiter: expected 2 counts, got " ++ toString counts.length⟩
  | .error e => .error e

theorem perform_enforceRateLimit {τ : Type} (serve : (c : Call) → τ → Except StoreError c.Answer × τ)
    (wallet network : String) (nowSec : ℤ) (s : τ) :
    Task.perform serve (enforceRateLimit d wallet network nowSec) s =
      (verdictOf (serve (.hit [bucketKey d .wallet (network ++ "|" ++ wallet), bucketKey d .network network]
        (windowStart nowSec)) s).1 nowSec,
       (serve (.hit [bucketKey d .wallet (network ++ "|" ++ wallet), bucketKey d .network network]
        (windowStart nowSec)) s).2) := by
  unfold enforceRateLimit
  simp only [ask]
  rw [Task.perform_call]
  generalize serve (.hit [bucketKey d .wallet (network ++ "|" ++ wallet), bucketKey d .network network]
    (windowStart nowSec)) s = served
  obtain ⟨answer, s'⟩ := served
  cases answer with
  | error e => rfl
  | ok counts =>
      simp only
      rcases counts with _ | ⟨walletHits, _ | ⟨networkHits, _ | ⟨more, rest⟩⟩⟩
      · rfl
      · rfl
      · simp only [verdictOf, judge]
        split <;> rfl
      · rfl

/-- A counter that rejects, or answers with a wrong number of counts, lets nothing through. -/
theorem verdictOf_ok {answer : Except StoreError (List ℕ)} {nowSec : ℤ} (h : verdictOf answer nowSec = .ok .ok) :
    ∃ counts, answer = .ok counts ∧ counts.length = 2 := by
  rcases answer with e | _ | ⟨walletHits, _ | ⟨networkHits, _ | ⟨more, rest⟩⟩⟩
  · cases h
  · cases h
  · cases h
  · exact ⟨_, rfl, rfl⟩
  · cases h

theorem judge_ok {walletHits networkHits : ℕ} {nowSec : ℤ} :
    judge walletHits networkHits nowSec = .ok ↔ walletHits ≤ limitPerWallet ∧ networkHits ≤ limitPerNetwork := by
  unfold judge
  split
  · simp
    omega
  · simp
    omega

theorem windowStart_spec {nowSec : ℤ} (h : 0 ≤ nowSec) : windowStart nowSec ≤ nowSec ∧
    nowSec < windowStart nowSec + windowSeconds ∧ windowSeconds ∣ windowStart nowSec := by
  rw [windowStart, Int.tmod_eq_emod_of_nonneg h]
  simp only [windowSeconds]
  omega

/-- The wait ends where the next window begins. -/
theorem judge_limited {walletHits networkHits : ℕ} {nowSec retryAfterSec : ℤ}
    (h : judge walletHits networkHits nowSec = .limited retryAfterSec) :
    nowSec + retryAfterSec = windowStart nowSec + windowSeconds := by
  have hlt : nowSec < windowStart nowSec + windowSeconds := by
    rcases le_or_gt 0 nowSec with hpos | hneg
    · exact (windowStart_spec hpos).2.1
    · have htmod : nowSec.tmod windowSeconds ≤ 0 := by
        have hnonneg := Int.tmod_nonneg windowSeconds (show 0 ≤ -nowSec by omega)
        rw [Int.neg_tmod] at hnonneg
        omega
      simp only [windowStart, windowSeconds] at htmod ⊢
      omega
  unfold judge at h
  split at h
  · cases h
    rw [max_eq_right (by omega)]
    omega
  · cases h

/-! ## Runs -/

/-- The windows in which a text was hashed. -/
def touches (text : String) (calls : List RateCall) : List ℤ := windows (fun c => c.texts.contains text) calls

theorem windows_snoc (p : RateCall → Bool) (calls : List RateCall) (c : RateCall) :
    windows p (calls ++ [c]) = windows p calls ++ if p c then [c.window] else [] := by
  rw [windows, List.filter_append, List.map_append, List.filter_singleton]
  cases p c <;> rfl

theorem touches_pairText (c : RateCall) (calls : List RateCall) :
    touches c.pairText calls = windows (RateCall.ofPair c.network c.wallet) calls := by
  refine congrArg (windows · calls) (funext fun c' => ?_)
  have hmem : c.pairText ∈ c'.texts ↔ c'.pairText = c.pairText := by
    have hne : c.pairText ≠ c'.networkText := RateCall.pairText_ne_networkText
    simp only [RateCall.texts, List.mem_cons, List.not_mem_nil, or_false, hne]
    exact eq_comm
  rw [Bool.eq_iff_iff, List.contains_iff_mem, hmem, RateCall.pairText_inj]
  simp [RateCall.ofPair]

theorem touches_networkText (c : RateCall) (calls : List RateCall) :
    touches c.networkText calls = windows (RateCall.ofNetwork c.network) calls := by
  refine congrArg (windows · calls) (funext fun c' => ?_)
  have hmem : c.networkText ∈ c'.texts ↔ c'.networkText = c.networkText := by
    have hne : c.networkText ≠ c'.pairText := RateCall.pairText_ne_networkText.symm
    simp only [RateCall.texts, List.mem_cons, List.not_mem_nil, or_false, hne, false_or]
    exact eq_comm
  rw [Bool.eq_iff_iff, List.contains_iff_mem, hmem, RateCall.networkText_inj]
  simp [RateCall.ofNetwork]

/-- Verdicts that are a judgement on the unbroken touches of the two subjects. -/
def JudgedOn (before : List Judged) (entry : Judged) : Prop :=
  entry.2 = .ok (judge
    (unbroken (windows (RateCall.ofPair entry.1.network entry.1.wallet) (before.map Prod.fst)) entry.1.window + 1)
    (unbroken (windows (RateCall.ofNetwork entry.1.network) (before.map Prod.fst)) entry.1.window + 1)
    entry.1.nowSec)

/-- The HMAC tells the texts of a run apart, in the form that the schema admits. -/
structure Hashed (L : RateLaws W) (d : WriteDeps) (calls : List RateCall) : Prop where
  accepted : ∀ text, L.accepts (d.hmac text) = true
  injective : Set.InjOn d.hmac {text | ∃ c ∈ calls, text ∈ c.texts}

section
variable {L : RateLaws W} {calls : List RateCall}

/-- The rows hold the touches of the run, and its verdicts are counted. -/
structure Tallied (L : RateLaws W) (d : WriteDeps) (texts : Set String) (log : List Judged) (s : σ) : Prop where
  rows : ∀ text ∈ texts, L.row s (d.hmac text) = rowAfter (touches text (log.map Prod.fst))
  verdicts : EachAfter JudgedOn log

theorem Tallied.step {texts : Set String} (haccepts : ∀ text, L.accepts (d.hmac text) = true)
    (hinj : Set.InjOn d.hmac texts) {log : List Judged} {s s' : σ} {c : RateCall} (h : Tallied L d texts log s)
    (hc : ∀ text ∈ c.texts, text ∈ texts) {verdict : Except StoreError RateVerdict}
    (hstep : (limiter W d).step s c = .ok (s', verdict)) : Tallied L d texts (log ++ [(c, verdict)]) s' := by
  have hpair : c.pairText ∈ texts := hc _ (by simp [RateCall.texts])
  have hnetwork : c.networkText ∈ texts := hc _ (by simp [RateCall.texts])
  have hne : d.hmac c.pairText ≠ d.hmac c.networkText := fun heq =>
    RateCall.pairText_ne_networkText (hinj hpair hnetwork heq)
  obtain ⟨hcounts, hrows⟩ := L.hit (d.hmac c.pairText) (d.hmac c.networkText) c.window s hne (haccepts _) (haccepts _)
  have hrun : (W.rate.hit [d.hmac c.pairText, d.hmac c.networkText] c.window s).2 = s' ∧
      verdictOf (W.rate.hit [d.hmac c.pairText, d.hmac c.networkText] c.window s).1 c.nowSec = verdict := by
    have hboth : ((Task.perform (W.serve countingOnly) (enforceRateLimit d c.wallet c.network c.nowSec) s).2,
        (Task.perform (W.serve countingOnly) (enforceRateLimit d c.wallet c.network c.nowSec) s).1) = (s', verdict) :=
      Except.ok.inj hstep
    rw [perform_enforceRateLimit] at hboth
    exact ⟨congrArg Prod.fst hboth, congrArg Prod.snd hboth⟩
  obtain ⟨rfl, rfl⟩ := hrun
  constructor
  case rows =>
    intro text htext
    rw [hrows, List.map_append, List.map_cons, List.map_nil, touches, windows_snoc]
    by_cases hmem : text ∈ c.texts
    · have hkey : d.hmac text = d.hmac c.pairText ∨ d.hmac text = d.hmac c.networkText := by
        simp only [RateCall.texts, List.mem_cons, List.not_mem_nil, or_false] at hmem
        exact hmem.imp (congrArg _) (congrArg _)
      rw [if_pos hkey, if_pos (by simpa using hmem), rowAfter_snoc, h.rows text htext]
      rfl
    · have hkey : ¬ (d.hmac text = d.hmac c.pairText ∨ d.hmac text = d.hmac c.networkText) := by
        rintro (heq | heq)
        · exact hmem (by simp [hinj htext hpair heq, RateCall.texts])
        · exact hmem (by simp [hinj htext hnetwork heq, RateCall.texts])
      rw [if_neg hkey, if_neg (by simpa using hmem), List.append_nil, h.rows text htext]
      rfl
  case verdicts =>
    refine h.verdicts.snoc ?_
    rw [JudgedOn, hcounts, h.rows _ hpair, h.rows _ hnetwork, touches_pairText, touches_networkText, touch_rowAfter,
      touch_rowAfter]
    rfl

theorem judgements_map_fst (W : WriteStore σ) (d : WriteDeps) (calls : List RateCall) :
    (judgements W d calls).map Prod.fst = calls := by
  rw [judgements]
  generalize W.empty = s
  induction calls generalizing s with
  | nil => rfl
  | cons c calls ih =>
      simp only [Machine.accepted, limiter, List.map_cons]
      exact congrArg (c :: ·) (ih _)

theorem judgements_counted (h : Hashed L d calls) : EachAfter JudgedOn (judgements W d calls) := by
  have hrun := Machine.run_history (m := limiter W d)
    (H := fun log s => (∀ c ∈ log.map Prod.fst, c ∈ calls) →
      Tallied L d {text | ∃ c ∈ calls, text ∈ c.texts} log s) ?_ (h := []) (s := W.empty) ?_ calls
  · refine (hrun fun c hc => ?_).verdicts
    rw [List.nil_append] at hc
    rwa [← judgements_map_fst W d calls]
  · intro log s c s' verdict hlog hstep hcalls
    refine (hlog fun c' hc' => hcalls c' ?_).step h.accepted h.injective (fun text htext => ⟨c, ?_, htext⟩) hstep
    · rw [List.map_append]
      exact List.mem_append_left _ hc'
    · exact hcalls c (by simp)
  · intro _
    exact ⟨fun text _ => by simp [L.empty, touches, windows], eachAfter_nil _⟩

end

/-! ## What the verdicts count -/

/-- The earlier calls of a window, refused ones included. -/
def earlier (p : RateCall → Bool) (window : ℤ) (before : List Judged) : ℕ :=
  before.countP fun e => p e.1 && decide (e.1.window = window)

theorem count_windows (p : RateCall → Bool) (window : ℤ) (before : List Judged) :
    (windows p (before.map Prod.fst)).count window = earlier p window before := by
  induction before with
  | nil => rfl
  | cons e before ih =>
      simp only [earlier, windows, List.map_cons, List.countP_cons] at ih ⊢
      cases hp : p e.1 with
      | false => simpa [hp] using ih
      | true => simp [hp, List.count_cons, ih]

/-- Within both limits, every earlier call of its window counted. -/
def WithinLimits (before : List Judged) (e : Judged) : Prop :=
  earlier (RateCall.ofPair e.1.network e.1.wallet) e.1.window before + 1 ≤ limitPerWallet ∧
    earlier (RateCall.ofNetwork e.1.network) e.1.window before + 1 ≤ limitPerNetwork

/-- The calls of a network do not return to a window once one of them was in another. -/
def Steady (network : String) (calls : List RateCall) : Prop := NoReturn (windows (RateCall.ofNetwork network) calls)

def letThrough (p : RateCall → Bool) (window : ℤ) (log : List Judged) : ℕ :=
  log.countP fun e => (p e.1 && decide (e.1.window = window)) && decide (e.2 = .ok .ok)

def textsOf (calls : List RateCall) : Set String := {text | ∃ c ∈ calls, text ∈ c.texts}

/-- What holds of the verdicts of a run. -/
structure LimiterSound (W : WriteStore σ) (d : WriteDeps) (calls : List RateCall) : Prop where
  allows : EachAfter (fun before e => WithinLimits before e → e.2 = .ok .ok) (judgements W d calls)
  counts : ∀ network, Steady network calls → EachAfter
    (fun before e => e.1.network = network → (e.2 = .ok .ok ↔ WithinLimits before e)) (judgements W d calls)
  perNetwork : ∀ network, Steady network calls → ∀ window,
    letThrough (RateCall.ofNetwork network) window (judgements W d calls) ≤ limitPerNetwork
  perWallet : ∀ network, Steady network calls → ∀ wallet window,
    letThrough (RateCall.ofPair network wallet) window (judgements W d calls) ≤ limitPerWallet
  apart : ∀ network calls', Set.InjOn d.hmac (textsOf calls') →
    calls'.filter (RateCall.ofNetwork network) = calls.filter (RateCall.ofNetwork network) →
    (judgements W d calls').filter (fun e => RateCall.ofNetwork network e.1) =
      (judgements W d calls).filter (fun e => RateCall.ofNetwork network e.1)
  retry : ∀ e ∈ judgements W d calls, ∀ retryAfterSec, e.2 = .ok (.limited retryAfterSec) →
    e.1.nowSec + retryAfterSec = e.1.window + windowSeconds

section
variable {log log' : List Judged} {calls : List RateCall}

/-- A pair is of one network. -/
theorem ofPair_sublist (network wallet : String) (calls : List RateCall) :
    (windows (RateCall.ofPair network wallet) calls).Sublist (windows (RateCall.ofNetwork network) calls) := by
  refine (List.monotone_filter_right calls fun c hc => ?_).map _
  exact (Bool.and_eq_true _ _ ▸ hc).1

theorem judgedOn_ok {before : List Judged} {e : Judged} (h : JudgedOn before e) : e.2 = .ok .ok ↔
    unbroken (windows (RateCall.ofPair e.1.network e.1.wallet) (before.map Prod.fst)) e.1.window + 1 ≤ limitPerWallet ∧
    unbroken (windows (RateCall.ofNetwork e.1.network) (before.map Prod.fst)) e.1.window + 1 ≤ limitPerNetwork := by
  rw [h, Except.ok.injEq, judge_ok]

theorem judgedOn_allows {before : List Judged} {e : Judged} (h : JudgedOn before e) (hlimits : WithinLimits before e) :
    e.2 = .ok .ok := by
  have hpair := unbroken_le_count (windows (RateCall.ofPair e.1.network e.1.wallet) (before.map Prod.fst)) e.1.window
  have hnetwork := unbroken_le_count (windows (RateCall.ofNetwork e.1.network) (before.map Prod.fst)) e.1.window
  rw [count_windows] at hpair hnetwork
  exact (judgedOn_ok h).mpr ⟨by have := hlimits.1; omega, by have := hlimits.2; omega⟩

/-- While its network is steady, a verdict counts every earlier call of the window. -/
theorem judgedOn_exact {before : List Judged} {e : Judged} (h : JudgedOn before e)
    (hsteady : Steady e.1.network (before.map Prod.fst ++ [e.1])) : e.2 = .ok .ok ↔ WithinLimits before e := by
  have hsteady' := hsteady.sublist (ofPair_sublist e.1.network e.1.wallet _)
  rw [Steady, windows_snoc, if_pos (by simp [RateCall.ofNetwork])] at hsteady
  rw [windows_snoc, if_pos (by simp [RateCall.ofPair])] at hsteady'
  rw [judgedOn_ok h, hsteady.unbroken_eq, hsteady'.unbroken_eq, count_windows, count_windows]
  rfl

theorem map_fst_filter (p : RateCall → Bool) (log : List Judged) :
    (log.filter fun e => p e.1).map Prod.fst = (log.map Prod.fst).filter p := by
  rw [List.filter_map]
  rfl

/-- The verdicts on one network are those of a run of its calls alone. -/
theorem judgedOn_filter (network : String) (h : EachAfter JudgedOn log) :
    EachAfter JudgedOn (log.filter fun e => RateCall.ofNetwork network e.1) := by
  induction log using List.reverseRecOn with
  | nil => exact eachAfter_nil _
  | append_singleton log e ih =>
      obtain ⟨hlog, he⟩ := h.of_snoc
      rw [List.filter_append, List.filter_singleton]
      cases hof : RateCall.ofNetwork network e.1 with
      | false => simpa using ih hlog
      | true =>
          refine (ih hlog).snoc ?_
          have hnetwork : e.1.network = network := of_decide_eq_true hof
          have hsame (p : RateCall → Bool) (hp : ∀ c, p c = true → RateCall.ofNetwork network c = true) :
              windows p ((log.filter fun e => RateCall.ofNetwork network e.1).map Prod.fst) =
                windows p (log.map Prod.fst) := by
            rw [windows, map_fst_filter, List.filter_filter, windows]
            refine congrArg _ (List.filter_congr fun c _ => ?_)
            cases hc : p c with
            | false => rfl
            | true => simp [hp c hc]
          rw [JudgedOn, hsame, hsame]
          · exact he
          · intro c hc
            rwa [hnetwork] at hc
          · intro c hc
            rw [RateCall.ofPair, Bool.and_eq_true, hnetwork] at hc
            exact hc.1

theorem judgedOn_unique (h : EachAfter JudgedOn log) (h' : EachAfter JudgedOn log')
    (hcalls : log.map Prod.fst = log'.map Prod.fst) : log = log' := by
  induction log using List.reverseRecOn generalizing log' with
  | nil => exact (List.map_eq_nil_iff.mp hcalls.symm).symm
  | append_singleton log e ih =>
      rcases List.eq_nil_or_concat log' with rfl | ⟨log', e', rfl⟩
      · simp at hcalls
      · rw [List.concat_eq_append] at h' hcalls ⊢
        rw [List.map_append, List.map_append] at hcalls
        obtain ⟨hbefore, hlast⟩ := List.append_inj' hcalls rfl
        have hsame := ih h.of_snoc.1 h'.of_snoc.1 hbefore
        subst hsame
        have hcall : e.1 = e'.1 := List.singleton_inj.mp hlast
        have he := h.of_snoc.2
        have he' := h'.of_snoc.2
        rw [JudgedOn] at he he'
        rw [← hcall] at he'
        rw [Prod.ext hcall (he.trans he'.symm)]

end

theorem limiterSound {L : RateLaws W} {calls : List RateCall} (haccepts : ∀ text, L.accepts (d.hmac text) = true)
    (hinj : Set.InjOn d.hmac (textsOf calls)) : LimiterSound W d calls := by
  have hjudged := @judgements_counted _ _ _ L _ ⟨haccepts, hinj⟩
  have hsplit {before : List Judged} {e : Judged} {after : List Judged}
      (heq : judgements W d calls = before ++ e :: after) :
      (before.map Prod.fst ++ [e.1]).Sublist calls := by
    have hcalls := judgements_map_fst W d calls
    rw [heq] at hcalls
    rw [← hcalls]
    simp
  have hexact {network : String} (hsteady : Steady network calls) : EachAfter
      (fun before e => e.1.network = network → (e.2 = .ok .ok ↔ WithinLimits before e)) (judgements W d calls) := by
    rintro before e after heq rfl
    exact judgedOn_exact (hjudged before e after heq) (hsteady.sublist (((hsplit heq).filter _).map _))
  constructor
  case allows => exact hjudged.imp fun before e => judgedOn_allows
  case counts => exact fun network => hexact
  case perNetwork =>
    intro network hsteady window
    refine countP_le_limit _ _ _ fun before e after heq hp hthrough => ?_
    rw [Bool.and_eq_true] at hp
    obtain ⟨rfl, rfl⟩ : e.1.network = network ∧ e.1.window = window :=
      ⟨of_decide_eq_true hp.1, of_decide_eq_true hp.2⟩
    exact ((hexact hsteady before e after heq rfl).mp (of_decide_eq_true hthrough)).2
  case perWallet =>
    intro network hsteady wallet window
    refine countP_le_limit _ _ _ fun before e after heq hp hthrough => ?_
    rw [RateCall.ofPair, Bool.and_eq_true, Bool.and_eq_true] at hp
    obtain ⟨rfl, rfl, rfl⟩ : e.1.network = network ∧ e.1.wallet = wallet ∧ e.1.window = window :=
      ⟨of_decide_eq_true hp.1.1, of_decide_eq_true hp.1.2, of_decide_eq_true hp.2⟩
    exact ((hexact hsteady before e after heq rfl).mp (of_decide_eq_true hthrough)).1
  case apart =>
    intro network calls' hinj' hfilter
    refine judgedOn_unique (judgedOn_filter network (@judgements_counted _ _ _ L _ ⟨haccepts, hinj'⟩))
      (judgedOn_filter network hjudged) ?_
    rw [map_fst_filter, map_fst_filter, judgements_map_fst, judgements_map_fst, hfilter]
  case retry =>
    intro e he retryAfterSec hlimited
    obtain ⟨before, after, heq⟩ := List.append_of_mem he
    have hjudgement := hjudged before e after heq
    rw [JudgedOn, hlimited, Except.ok.injEq] at hjudgement
    exact judge_limited hjudgement.symm

/-- Over both stores: as long as no call of a network comes back to a window that the network has left, every
request of it is counted; the rest needs no condition. -/
theorem limiter_counts_every_request (d : WriteDeps) (calls : List RateCall)
    (hhex : ∀ text, ofClass isLowerHex 64 64 (d.hmac text) = true) (hinj : Set.InjOn d.hmac (textsOf calls)) :
    LimiterSound pgWriteStore d calls ∧ LimiterSound memoryWriteStore d calls ∧
    (∀ (τ : Type) (serve : (c : Call) → τ → Except StoreError c.Answer × τ) (c : RateCall) (s : τ),
      (∀ counts, (serve (.hit [d.hmac c.pairText, d.hmac c.networkText] c.window) s).1 = .ok counts →
        counts.length ≠ 2) →
      (Task.perform serve (enforceRateLimit d c.wallet c.network c.nowSec) s).1 ≠ .ok .ok) ∧
    ∀ nowSec, 0 ≤ nowSec → windowStart nowSec ≤ nowSec ∧ nowSec < windowStart nowSec + windowSeconds ∧
      windowSeconds ∣ windowStart nowSec := by
  refine ⟨@limiterSound _ _ _ pgRateLaws _ hhex hinj, @limiterSound _ _ _ memoryRateLaws _ (fun _ => rfl) hinj, ?_,
    fun nowSec => windowStart_spec⟩
  intro τ serve c s hanswer hok
  rw [perform_enforceRateLimit] at hok
  obtain ⟨counts, hcounts, hlength⟩ := verdictOf_ok hok
  exact hanswer counts hcounts hlength

/-! ## Two workers at a boundary -/

def rateDeps : WriteDeps where
  publicKey _ := none
  ed25519Verify _ _ _ := none
  hmac text :=
    if text = "wallet:203.0.113.0/24|BBBBBBBBBBBBBBBBBBBBBBBBBBBBBBBB" then
      "c4d396a968d08201b80609077d8af4cb7e9a09529f1f955e58770281a7374330"
    else "7e7ab8c05a6893f7614f6f6be691a2896da61a78ec6216e5d48ea5791faeb25b"
  reservedXIds := none
  reservedHandles := none

def rateCall (nowSec : ℤ) : RateCall := ⟨"BBBBBBBBBBBBBBBBBBBBBBBBBBBBBBBB", "203.0.113.0/24", nowSec, by decide⟩

theorem rateDeps_hex (text : String) : ofClass isLowerHex 64 64 (rateDeps.hmac text) = true := by
  simp only [rateDeps]
  split
  · rw [ofClass, String.toList_ofList]
    decide
  · rw [ofClass, String.toList_ofList]
    decide

theorem rateDeps_injOn {calls : List RateCall} (h : ∀ c ∈ calls, ∃ nowSec, c = rateCall nowSec) :
    Set.InjOn rateDeps.hmac (textsOf calls) := by
  have htexts {text : String} (htext : text ∈ textsOf calls) :
      text = "wallet:203.0.113.0/24|BBBBBBBBBBBBBBBBBBBBBBBBBBBBBBBB" ∨ text = "network:203.0.113.0/24" := by
    obtain ⟨c, hc, hmem⟩ := htext
    obtain ⟨nowSec, rfl⟩ := h c hc
    have hpair : (rateCall nowSec).pairText = "wallet:203.0.113.0/24|BBBBBBBBBBBBBBBBBBBBBBBBBBBBBBBB" :=
      show "wallet" ++ ":" ++ ("203.0.113.0/24" ++ "|" ++ "BBBBBBBBBBBBBBBBBBBBBBBBBBBBBBBB") = _ by decide +kernel
    have hnetwork : (rateCall nowSec).networkText = "network:203.0.113.0/24" :=
      show "network" ++ ":" ++ "203.0.113.0/24" = _ by decide +kernel
    simpa [RateCall.texts, hpair, hnetwork] using hmem
  intro text htext text' htext' heq
  rcases htexts htext with rfl | rfl
  · rcases htexts htext' with rfl | rfl
    · rfl
    · simp [rateDeps] at heq
  · rcases htexts htext' with rfl | rfl
    · simp [rateDeps] at heq
    · rfl

/-- Twenty-one calls in one window and one in the next. -/
def inOrder : List RateCall := List.replicate 21 (rateCall 1799999999) ++ [rateCall 1800000000]

/-- The twenty-first is refused, and no other. -/
theorem limiter_counts_every_request_witness :
    (LimiterSound pgWriteStore rateDeps inOrder ∧ LimiterSound memoryWriteStore rateDeps inOrder) ∧
    (judgements pgWriteStore rateDeps inOrder).map (fun e => decide (e.2 = .ok .ok)) =
      List.replicate 20 true ++ [false, true] := by
  have hinj : Set.InjOn rateDeps.hmac (textsOf inOrder) := by
    refine rateDeps_injOn fun c hc => ?_
    rcases List.mem_append.mp hc with hc | hc
    · exact ⟨_, List.eq_of_mem_replicate hc⟩
    · exact ⟨_, List.mem_singleton.mp hc⟩
  obtain ⟨hpg, hmemory, -⟩ := limiter_counts_every_request rateDeps inOrder rateDeps_hex hinj
  exact ⟨⟨hpg, hmemory⟩, by decide +kernel⟩

/-- Twenty calls in one window, one in the next, and one more in the first. -/
def outOfOrder : List RateCall :=
  List.replicate 20 (rateCall 1799999999) ++ [rateCall 1800000000, rateCall 1799999999]

theorem limiter_forgets_a_window : Set.InjOn rateDeps.hmac (textsOf outOfOrder) ∧
    ¬ letThrough (RateCall.ofPair "203.0.113.0/24" "BBBBBBBBBBBBBBBBBBBBBBBBBBBBBBBB") (windowStart 1799999999)
      (judgements pgWriteStore rateDeps outOfOrder) ≤ limitPerWallet := by
  refine ⟨rateDeps_injOn fun c hc => ?_, by decide +kernel⟩
  rcases List.mem_append.mp hc with hc | hc
  · exact ⟨_, List.eq_of_mem_replicate hc⟩
  · rcases List.mem_cons.mp hc with rfl | hc
    · exact ⟨_, rfl⟩
    · exact ⟨_, List.mem_singleton.mp hc⟩

end BullsUnicorns.Identity
