import BullsUnicorns.Identity.Lemmas.Instants

/-!
# A signed message means one thing
-/

namespace BullsUnicorns.Identity

/-! ## The texts that the handler accepts -/

section
variable {s : String} {p : Char → Bool} {lo hi : ℕ} {c : Char}

/-- A host name, with its port where it has one. -/
theorem hostRe_cases (h : hostRe s = true) : ∃ name port, s.toList = name ++ port ∧ ':' ∉ name ∧
    (∀ c ∈ name, isHostChar c = true) ∧
    (port = [] ∨ ∃ d ds, port = ':' :: d :: ds ∧ ∀ c ∈ d :: ds, '0' ≤ c ∧ c ≤ '9') := by
  simp only [hostRe, List.span_eq_takeWhile_dropWhile, Bool.and_eq_true] at h
  obtain ⟨hname, hport⟩ := h
  refine ⟨s.toList.takeWhile (· ≠ ':'), s.toList.dropWhile (· ≠ ':'), List.takeWhile_append_dropWhile.symm, ?_,
    fun c hc => char_of_ofClass hname (by simpa using hc), ?_⟩
  · intro hmem
    have hne := List.all_eq_true.mp List.all_takeWhile _ hmem
    simp at hne
  · cases hdrop : s.toList.dropWhile (· ≠ ':') with
    | nil => exact .inl rfl
    | cons sep rest =>
        rw [hdrop] at hport
        have hsep : sep = ':' := by
          have hhead := List.head?_dropWhile_not (fun c : Char => decide (c ≠ ':')) s.toList
          rw [hdrop] at hhead
          simpa using hhead
        simp only [ofClass, String.toList_ofList, Bool.and_eq_true, decide_eq_true_eq] at hport
        cases rest with
        | nil => simp at hport
        | cons d ds =>
            refine .inr ⟨d, ds, by rw [hsep], fun c hc => ?_⟩
            simpa using List.all_eq_true.mp hport.2 c hc

theorem hostRe_originFrom (host : Option String) : hostRe (originFrom host) = true := by
  cases host with
  | none => decide +kernel
  | some host =>
      simp only [originFrom]
      split
      · assumption
      · decide +kernel

/-- The label of each line that carries a field. -/
def fieldLabels : List String := ["Wallet:  ", "X:       @", "Nonce:   ", "Issued:  ", "Expires: "]

/-- The labelled lines of a message, as labels and values. -/
def fields (input : ChallengeMessageInput) : List (String × String) :=
  [("Wallet:  ", input.wallet)] ++
  (match input.purpose with
    | .link => [("X:       @", printed input.handle ++ "  (id " ++ printed input.xId ++ ")")]
    | .unlink => []) ++
  [("Nonce:   ", input.nonce), ("Issued:  ", isoText input.issuedAtSec), ("Expires: ", isoText input.expiresAtSec)]

def heading (input : ChallengeMessageInput) : String :=
  input.origin ++ match input.purpose with
    | .link => " wants to link your X account."
    | .unlink => " wants to unlink your X account."

def closing : ChallengePurpose → List String
  | .link => linkLines
  | .unlink => unlinkLines

def messageLines (input : ChallengeMessageInput) : List String :=
  heading input :: "" :: ((fields input).map fun field => field.1 ++ field.2) ++ "" :: closing input.purpose

/-- What the handler gives to the message. -/
structure AcceptedInput (input : ChallengeMessageInput) : Prop where
  origin : ∃ host, input.origin = originFrom host
  wallet : walletRe input.wallet = true
  identity : input.purpose = .link → ∃ handle xId, input.handle = some handle ∧ input.xId = some xId ∧
    handleRe handle = true ∧ xIdRe xId = true
  nonce : nonceRe input.nonce = true
  issued : FourDigitYear input.issuedAtSec
  expires : FourDigitYear input.expiresAtSec

variable {input : ChallengeMessageInput}

theorem challengeMessage_eq (h : AcceptedInput input) :
    challengeMessage input = .ok (Text.join '\n' (messageLines input)) := by
  rw [challengeMessage, isoSecond_eq h.issued, isoSecond_eq h.expires]
  cases hpurpose : input.purpose with
  | link =>
      simp [messageLines, heading, fields, closing, hpurpose, Text.join, pure, Except.pure, bind, Except.bind,
        String.append_assoc]
  | unlink => simp [messageLines, heading, fields, closing, hpurpose, Text.join, pure, Except.pure, bind, Except.bind]

/-! ## Lines -/

theorem isHostChar_ne {c : Char} (h : isHostChar c = true) : c ≠ '\n' := by
  rintro rfl
  revert h
  decide

theorem origin_clean (h : hostRe s = true) : '\n' ∉ s.toList := by
  obtain ⟨name, port, hsplit, -, hname, hport⟩ := hostRe_cases h
  rw [hsplit, List.mem_append]
  rintro (hmem | hmem)
  · exact isHostChar_ne (hname _ hmem) rfl
  · rcases hport with rfl | ⟨d, ds, rfl, hdigits⟩
    · cases hmem
    · rcases List.mem_cons.mp hmem with hmem | hmem
      · cases hmem
      · exact absurd (hdigits _ hmem) (by decide)

theorem isoText_clean {unixSec : ℤ} (hdigit : c.isDigit = false) (hsep : c ∉ ['-', 'T', ':', 'Z']) :
    c ∉ (isoText unixSec).toList := by
  intro hmem
  rcases isoText_char hmem with h | h
  · rw [h] at hdigit
    cases hdigit
  · exact hsep (by simpa using h)

/-- Every labelled value is on one line and has no full stop. -/
theorem value_clean (h : AcceptedInput input) {c : Char} (hc : c = '\n' ∨ c = '.') :
    ∀ field ∈ fields input, field.1 ∈ fieldLabels ∧ c ∉ field.2.toList := by
  intro field hfield
  have hwallet : isBase58Char c = false := by rcases hc with rfl | rfl <;> decide
  have hhandle : isHandleChar c = false := by rcases hc with rfl | rfl <;> decide
  have hhex : isLowerHex c = false := by rcases hc with rfl | rfl <;> decide
  have hdigit : c.isDigit = false ∧ (decide ('0' ≤ c) && decide (c ≤ '9')) = false := by
    rcases hc with rfl | rfl <;> decide
  have hsep : c ∉ ['-', 'T', ':', 'Z'] ∧ c ∉ "  (id ".toList ∧ c ∉ ")".toList := by rcases hc with rfl | rfl <;> decide
  simp only [fields, List.mem_append, List.mem_cons, List.not_mem_nil, or_false] at hfield
  rcases hfield with (rfl | hfield) | rfl | rfl | rfl
  · exact ⟨by simp [fieldLabels], ofClass_clean h.wallet hwallet⟩
  · cases hpurpose : input.purpose with
    | unlink => simp [hpurpose] at hfield
    | link =>
        obtain ⟨handle, xId, hsome, hsome', hre, hre'⟩ := h.identity hpurpose
        rw [hpurpose, List.mem_singleton] at hfield
        subst hfield
        refine ⟨by simp [fieldLabels], ?_⟩
        simp only [hsome, hsome', printed, Option.getD_some, String.toList_append, List.mem_append, not_or]
        exact ⟨⟨⟨ofClass_clean hre hhandle, hsep.2.1⟩, ofClass_clean hre' hdigit.2⟩, hsep.2.2⟩
  · exact ⟨by simp [fieldLabels], ofClass_clean h.nonce hhex⟩
  · exact ⟨by simp [fieldLabels], isoText_clean hdigit.1 hsep.1⟩
  · exact ⟨by simp [fieldLabels], isoText_clean hdigit.1 hsep.1⟩

/-- A line that carries no field and asks for nothing. -/
structure Plain (line : String) : Prop where
  oneLine : '\n' ∉ line.toList
  noColon : ':' ∉ line.toList
  asksNothing : ¬ ['t', '.'] <:+ line.toList

/-- The characters of a literal are at hand, where `toList` would decode its bytes. -/
theorem plain_ofList {cs : List Char} (hline : '\n' ∉ cs) (hcolon : ':' ∉ cs) (hlast : ¬ ['t', '.'] <:+ cs) :
    Plain (String.ofList cs) := by
  constructor <;> rwa [String.toList_ofList]

theorem closing_plain (purpose : ChallengePurpose) : ∀ line ∈ "" :: closing purpose, Plain line := by
  cases purpose with
  | link =>
      simp only [closing, linkLines, List.forall_mem_cons]
      exact ⟨plain_ofList (by decide) (by decide) (by decide), plain_ofList (by decide) (by decide) (by decide),
        plain_ofList (by decide) (by decide) (by decide), plain_ofList (by decide) (by decide) (by decide),
        plain_ofList (by decide) (by decide) (by decide), plain_ofList (by decide) (by decide) (by decide),
        List.forall_mem_nil _⟩
  | unlink =>
      simp only [closing, unlinkLines, List.forall_mem_cons]
      exact ⟨plain_ofList (by decide) (by decide) (by decide), plain_ofList (by decide) (by decide) (by decide),
        plain_ofList (by decide) (by decide) (by decide), plain_ofList (by decide) (by decide) (by decide),
        plain_ofList (by decide) (by decide) (by decide), List.forall_mem_nil _⟩

theorem Plain.unlabelled {line label : String} (h : Plain line) (hl : label ∈ fieldLabels) :
    Text.startsWith line label = false := by
  have hcolons : ∀ label ∈ fieldLabels, ':' ∈ label.toList := by decide
  rw [Text.startsWith, Bool.eq_false_iff, Ne, List.isPrefixOf_iff_prefix]
  exact fun hhead => h.noColon (hhead.subset (hcolons label hl))

theorem Plain.asks_nothing {line : String} (h : Plain line) :
    " your X account.".toList.isSuffixOf line.toList = false := by
  rw [Bool.eq_false_iff, Ne, List.isSuffixOf_iff_suffix, String.toList_ofList]
  intro hsuffix
  exact h.asksNothing (List.IsSuffix.trans (by decide) hsuffix)

theorem line_clean (h : AcceptedInput input) : ∀ line ∈ messageLines input, '\n' ∉ line.toList := by
  intro line hline
  simp only [messageLines, List.mem_cons, List.mem_append] at hline
  rcases hline with (rfl | rfl | hline) | rfl | hline
  · obtain ⟨host, horigin⟩ := h.origin
    rw [heading, String.toList_append, List.mem_append, not_or]
    refine ⟨origin_clean (horigin ▸ hostRe_originFrom host), ?_⟩
    cases input.purpose <;> decide
  · decide
  · obtain ⟨field, hfield, rfl⟩ := List.mem_map.mp hline
    obtain ⟨hlabel, hvalue⟩ := value_clean h (.inl rfl) field hfield
    rw [String.toList_append, List.mem_append, not_or]
    refine ⟨?_, hvalue⟩
    have hlabels : ∀ label ∈ fieldLabels, '\n' ∉ label.toList := by decide
    exact hlabels _ hlabel
  · decide
  · exact (closing_plain input.purpose line (List.mem_cons_of_mem _ hline)).oneLine

/-- The lines of a text that begin with a label. -/
def labelled (label text : String) : List String := (Text.split '\n' text).filter fun line => Text.startsWith line label

theorem split_message (h : AcceptedInput input) : Text.split '\n' (Text.join '\n' (messageLines input)) = messageLines input := by
  refine Text.join_injective (fun s hs => Text.sep_notMem_split hs) (line_clean h) ?_ (List.cons_ne_nil _ _)
    (Text.join_split '\n' _)
  rw [Text.split]
  exact fun hnil => List.splitOn_ne_nil _ _ (List.map_eq_nil_iff.mp hnil)

/-- A line that carries a field begins with no other label. -/
theorem startsWith_label {label label' : String} (hl : label ∈ fieldLabels) (hl' : label' ∈ fieldLabels) (value : String) :
    Text.startsWith (label ++ value) label' = decide (label = label') := by
  have hheads : ∀ label ∈ fieldLabels, ∀ label' ∈ fieldLabels, label ≠ label' →
      label.toList.head? ≠ label'.toList.head? ∧ label.toList ≠ [] ∧ label'.toList ≠ [] := by decide
  rw [Text.startsWith, String.toList_append]
  by_cases heq : label = label'
  · rw [heq, decide_eq_true rfl, List.isPrefixOf_iff_prefix]
    exact List.prefix_append _ _
  · rw [decide_eq_false heq, Bool.eq_false_iff, Ne, List.isPrefixOf_iff_prefix]
    obtain ⟨hhead, hne, hne'⟩ := hheads label hl label' hl' heq
    rintro ⟨rest, hrest⟩
    have hfirst := congrArg List.head? hrest
    rw [List.head?_append_of_ne_nil _ hne', List.head?_append_of_ne_nil _ hne] at hfirst
    exact hhead hfirst.symm

/-- A label has a space after its colon, a host has a digit. -/
theorem heading_unlabelled (h : AcceptedInput input) {label : String} (hl : label ∈ fieldLabels) :
    Text.startsWith (heading input) label = false := by
  have hshape : ∀ label ∈ fieldLabels, label.toList = label.toList.takeWhile (· ≠ ':') ++ ':' :: ' ' ::
      label.toList.drop ((label.toList.takeWhile (· ≠ ':')).length + 2) ∧
      ':' ∉ label.toList.takeWhile (· ≠ ':') := by decide
  obtain ⟨hlabel, hclean⟩ := hshape label hl
  rw [Text.startsWith, Bool.eq_false_iff, Ne, List.isPrefixOf_iff_prefix]
  rintro ⟨rest, hrest⟩
  obtain ⟨host, horigin⟩ := h.origin
  obtain ⟨name, port, hsplit, hname, -, hport⟩ := hostRe_cases (horigin ▸ hostRe_originFrom host)
  rw [hlabel, heading, String.toList_append, hsplit] at hrest
  rcases hport with rfl | ⟨d, ds, rfl, hdigits⟩
  · have hcolon : ':' ∉ name ++ [] ++ (match input.purpose with
        | .link => " wants to link your X account."
        | .unlink => " wants to unlink your X account.").toList := by
      rw [List.append_nil, List.mem_append, not_or]
      refine ⟨hname, ?_⟩
      cases input.purpose <;> decide
    rw [← hrest] at hcolon
    exact hcolon (by simp)
  · simp only [List.append_assoc, List.cons_append] at hrest
    obtain ⟨-, hafter⟩ := Delimit.before_sep_inj hclean hname hrest
    have hd := List.head_eq_of_cons_eq hafter
    exact absurd (hdigits d List.mem_cons_self) (by rw [← hd]; decide)

/-- Each label stands before its own field and nowhere else. -/
theorem labelled_message (h : AcceptedInput input) {label : String} (hl : label ∈ fieldLabels) :
    labelled label (Text.join '\n' (messageLines input)) =
      ((fields input).filter fun field => field.1 = label).map fun field => field.1 ++ field.2 := by
  have hclosing : ("" :: closing input.purpose).filter (fun line => Text.startsWith line label) = [] := by
    rw [List.filter_eq_nil_iff]
    intro line hline
    rw [(closing_plain _ line hline).unlabelled hl]
    exact Bool.false_ne_true
  have hempty : ∀ label ∈ fieldLabels, Text.startsWith "" label = false :=
    fun label hl => (closing_plain input.purpose "" List.mem_cons_self).unlabelled hl
  rw [labelled, split_message h, messageLines, List.filter_append, hclosing, List.append_nil,
    List.filter_cons_of_neg (by simp [heading_unlabelled h hl]), List.filter_cons_of_neg (by simp [hempty label hl]),
    List.filter_map]
  refine congrArg _ (List.filter_congr fun field hfield => ?_)
  exact startsWith_label (value_clean h (.inl rfl) field hfield).1 hl field.2

/-- The lines of a text that ask for what the first line of a message asks for. -/
def asking (text : String) : List String :=
  (Text.split '\n' text).filter fun line => " your X account.".toList.isSuffixOf line.toList

theorem asking_message (h : AcceptedInput input) : asking (Text.join '\n' (messageLines input)) = [heading input] := by
  have hclosing : ("" :: closing input.purpose).filter
      (fun line => " your X account.".toList.isSuffixOf line.toList) = [] := by
    rw [List.filter_eq_nil_iff]
    intro line hline
    rw [(closing_plain _ line hline).asks_nothing]
    exact Bool.false_ne_true
  have hheading : " your X account.".toList.isSuffixOf (heading input).toList = true := by
    rw [List.isSuffixOf_iff_suffix, heading, String.toList_append]
    cases input.purpose with
    | link => exact ⟨input.origin.toList ++ " wants to link".toList, by simp⟩
    | unlink => exact ⟨input.origin.toList ++ " wants to unlink".toList, by simp⟩
  have hfields : ((fields input).map fun field => field.1 ++ field.2).filter
      (fun line => " your X account.".toList.isSuffixOf line.toList) = [] := by
    refine List.filter_eq_nil_iff.mpr fun line hline hsuffix => ?_
    obtain ⟨field, hfield, rfl⟩ := List.mem_map.mp hline
    obtain ⟨hlabel, hvalue⟩ := value_clean h (.inr rfl) field hfield
    have hlabels : ∀ label ∈ fieldLabels, '.' ∉ label.toList := by decide
    have hstop := (List.isSuffixOf_iff_suffix.mp hsuffix).subset (show '.' ∈ " your X account.".toList by decide)
    rw [String.toList_append, List.mem_append] at hstop
    exact hstop.elim (hlabels _ hlabel) hvalue
  rw [asking, split_message h, messageLines, List.filter_append, hclosing, List.append_nil,
    List.filter_cons, if_pos hheading, List.filter_cons, if_neg (by decide), hfields]

theorem append_left_inj {s t t' : String} (h : s ++ t = s ++ t') : t = t' := by
  have hlist := congrArg String.toList h
  rw [String.toList_append, String.toList_append, List.append_cancel_left_eq] at hlist
  exact String.toList_inj.mp hlist

theorem append_right_inj {s s' t : String} (h : s ++ t = s' ++ t) : s = s' := by
  have hlist := congrArg String.toList h
  rw [String.toList_append, String.toList_append, List.append_cancel_right_eq] at hlist
  exact String.toList_inj.mp hlist

/-- A handle has no space, so the id is read back after it. -/
theorem account_inj {handle handle' xId xId' : String} (h : handleRe handle = true) (h' : handleRe handle' = true)
    (heq : handle ++ "  (id " ++ xId ++ ")" = handle' ++ "  (id " ++ xId' ++ ")") : handle = handle' ∧ xId = xId' := by
  have hlist := congrArg String.toList (append_right_inj heq)
  have hid : "  (id ".toList = ' ' :: " (id ".toList := rfl
  simp only [String.toList_append, hid, List.append_assoc, List.cons_append] at hlist
  obtain ⟨hhandle, hrest⟩ := Delimit.before_sep_inj (ofClass_clean h (by decide)) (ofClass_clean h' (by decide)) hlist
  exact ⟨String.toList_inj.mp hhandle, String.toList_inj.mp (List.append_cancel_left hrest)⟩

/-- Equal lines were made of equal fields. -/
theorem messageLines_inj {a b : ChallengeMessageInput} (ha : AcceptedInput a) (hb : AcceptedInput b)
    (hlines : messageLines a = messageLines b) : a.purpose = b.purpose ∧ a.origin = b.origin ∧ a.wallet = b.wallet ∧
      a.nonce = b.nonce ∧ a.issuedAtSec = b.issuedAtSec ∧ a.expiresAtSec = b.expiresAtSec ∧
      (a.purpose = .link → a.handle = b.handle ∧ a.xId = b.xId) := by
  cases hpa : a.purpose with
  | link =>
      cases hpb : b.purpose with
      | link =>
          obtain ⟨handle, xId, hhandle, hxId, hre, -⟩ := ha.identity hpa
          obtain ⟨handle', xId', hhandle', hxId', hre', -⟩ := hb.identity hpb
          simp only [messageLines, heading, fields, hpa, hpb, List.map_cons, List.map_nil,
            List.cons_append, List.nil_append, List.cons.injEq, hhandle, hhandle', hxId, hxId', printed,
            Option.getD_some] at hlines
          obtain ⟨hhead, -, hwallet, haccount, hnonce, hissued, hexpires, -⟩ := hlines
          obtain ⟨rfl, rfl⟩ := account_inj hre hre' (append_left_inj haccount)
          exact ⟨rfl, append_right_inj hhead, append_left_inj hwallet, append_left_inj hnonce,
            isoText_inj ha.issued hb.issued (append_left_inj hissued),
            isoText_inj ha.expires hb.expires (append_left_inj hexpires),
            fun _ => ⟨hhandle.trans hhandle'.symm, hxId.trans hxId'.symm⟩⟩
      | unlink =>
          have hlength := congrArg List.length hlines
          simp [messageLines, fields, closing, hpa, hpb, linkLines, unlinkLines] at hlength
  | unlink =>
      cases hpb : b.purpose with
      | link =>
          have hlength := congrArg List.length hlines
          simp [messageLines, fields, closing, hpa, hpb, linkLines, unlinkLines] at hlength
      | unlink =>
          simp only [messageLines, heading, fields, hpa, hpb, List.map_cons, List.map_nil,
            List.cons_append, List.nil_append, List.cons.injEq] at hlines
          obtain ⟨hhead, -, hwallet, hnonce, hissued, hexpires, -⟩ := hlines
          exact ⟨rfl, append_right_inj hhead, append_left_inj hwallet, append_left_inj hnonce,
            isoText_inj ha.issued hb.issued (append_left_inj hissued),
            isoText_inj ha.expires hb.expires (append_left_inj hexpires), fun h => by cases h⟩

end

/-- The text determines every field that it was made of, and each line that carries a field is the only one
that could be taken for it. -/
theorem message_means_one_thing :
    (∀ a b, AcceptedInput a → AcceptedInput b → challengeMessage a = challengeMessage b →
      a.purpose = b.purpose ∧ a.origin = b.origin ∧ a.wallet = b.wallet ∧ a.nonce = b.nonce ∧
      a.issuedAtSec = b.issuedAtSec ∧ a.expiresAtSec = b.expiresAtSec ∧
      (a.purpose = .link → a.handle = b.handle ∧ a.xId = b.xId)) ∧
    ∀ input, AcceptedInput input → ∃ text, challengeMessage input = .ok text ∧ asking text = [heading input] ∧
      ∀ label ∈ fieldLabels, labelled label text =
        ((fields input).filter fun field => field.1 = label).map fun field => field.1 ++ field.2 := by
  constructor
  · intro a b ha hb heq
    rw [challengeMessage_eq ha, challengeMessage_eq hb, Except.ok.injEq] at heq
    exact messageLines_inj ha hb (Text.join_injective (line_clean ha) (line_clean hb) (List.cons_ne_nil _ _)
      (List.cons_ne_nil _ _) heq)
  · intro input h
    exact ⟨_, challengeMessage_eq h, asking_message h, fun label hl => labelled_message h hl⟩

def sampleInput : ChallengeMessageInput where
  purpose := .link
  origin := "preview.bullsvsunicorns.fun:8443"
  wallet := "BBBBBBBBBBBBBBBBBBBBBBBBBBBBBBBB"
  handle := some "bob"
  xId := some "7"
  nonce := "00000000000000000000000000000000000000000000000000000000000000ff"
  issuedAtSec := 1800000000
  expiresAtSec := 1800000300

theorem message_means_one_thing_witness :
    ∃ text, challengeMessage sampleInput = .ok text ∧ labelled "X:       @" text = ["X:       @bob  (id 7)"] := by
  have haccepted : AcceptedInput sampleInput :=
    ⟨⟨some "preview.bullsvsunicorns.fun:8443", by decide +kernel⟩, by decide +kernel,
      fun _ => ⟨"bob", "7", rfl, rfl, by decide, by decide⟩, by decide +kernel, by decide, by decide⟩
  obtain ⟨text, htext, -, hlabels⟩ := message_means_one_thing.2 sampleInput haccepted
  exact ⟨text, htext, (hlabels _ (by decide)).trans (by decide +kernel)⟩

end BullsUnicorns.Identity
