import WispersAccess.Foundation.ActionSystem
import WispersAccess.Foundation.Ledger
import WispersAccess.Foundation.Slots
import WispersAccess.Guest.Pairing

/-!
# Pairing tokens over time

Tasks mint tokens and consume them while the clock goes on, and browsers come to
the pairing endpoint with them.  A mint reads the clock before it gets hold of
the tokens, and a token's expiry is looked at when others are minted and when it
is consumed.
-/

namespace WispersAccess
namespace Guest

open Foundation
open LedgerEvent (issued used)

/-!
## The system
-/

/-- A call of `mint_token`. -/
structure MintCall where
  token : MintedSecret
  /-- What the clock showed when the token was made. -/
  now : Nat
  /-- The token is in the table. -/
  stored : Bool
  deriving DecidableEq, Repr

structure TokenState where
  issuer : CookieIssuer
  now : Nat
  mints : List MintCall

inductive TokenAction where
  | tick (now : Nat)
  | startMint (token : MintedSecret)
  | storeToken (call : Nat)
  | consume (token : String)
  /-- A request to the proxy's own host. -/
  | pair (req : BrowserRequest) (cookies : List (List UInt8))

def TokenState.start (issuer : CookieIssuer) (now : Nat) : TokenState where
  issuer := issuer
  now := now
  mints := []

def tokenStep (s : TokenState) : TokenAction -> Option TokenState
  | TokenAction.tick now =>
      if s.now ≤ now ∧ now ≤ s.issuer.endOfTime then some { s with now := now } else none
  | TokenAction.startMint token =>
      some { s with mints := s.mints ++ [{ token := token, now := s.now, stored := false }] }
  | TokenAction.storeToken call =>
      match s.mints[call]? with
      | none => none
      | some mint =>
          if mint.stored then none
          else
            some { s with
              issuer := s.issuer.mintToken mint.now mint.token
              mints := s.mints.set call { mint with stored := true } }
  | TokenAction.consume token =>
      some { s with issuer := (s.issuer.consumeToken s.now token).2 }
  | TokenAction.pair req cookies =>
      some { s with issuer := (answerOwnHost s.issuer s.now req cookies).2 }

/-- The token that a request to the proxy's own host consumes, if it consumes one. -/
def spentToken (issuer : CookieIssuer) (req : BrowserRequest) (cookies : List (List UInt8)) :
    Option String :=
  let params := parseQuery (req.query.getD "")
  match param "share" params, param "app" params with
  | some share, some app =>
      if req.path = "/pair" ∧ isDnsLabel share = true ∧ isDnsLabel app = true ∧
          ((param "path" params).getD "/").toList.head? = some '/' ∧
          issuer.requiredCookie.isPresentedIn cookies = false then
        param "token" params
      else none
  | _, _ => none

/-- What a step adds to the history of the tokens. -/
def tokenEvent (s : TokenState) : TokenAction -> Option (LedgerEvent String Nat)
  | TokenAction.storeToken call =>
      match s.mints[call]? with
      | none => none
      | some mint =>
          if mint.stored then none
          else some (issued mint.token.text (mint.now + s.issuer.tokenLifetime))
  | TokenAction.consume token => some (used token s.now (s.issuer.live s.now token))
  | TokenAction.pair req cookies =>
      (spentToken s.issuer req cookies).map fun token =>
        used token s.now (s.issuer.live s.now token)
  | TokenAction.tick _ => none
  | TokenAction.startMint _ => none

/-- The history of the tokens after these steps. -/
def tokenHistory (s : TokenState) (acts : List TokenAction) : List (LedgerEvent String Nat) :=
  observations tokenStep tokenEvent s acts

/-!
## The pairing endpoint
-/

/-- Where a redirect leads: an app of a share below the host the request was for. -/
def LeadsToApp (req : BrowserRequest) (location : String) : Prop :=
  exists app share path, isDnsLabel app = true ∧ isDnsLabel share = true ∧
    path.toList.head? = some '/' ∧
    location = "http://" ++ app ++ "." ++ share ++ "." ++ req.host ++ path

theorem redirect_eq_redirect {location location' : String} {setCookie setCookie' : Option String}
    (h : redirect location setCookie = PairAnswer.redirect location' setCookie') :
    location' = location ∧ setCookie' = setCookie := by
  unfold redirect at h
  split at h
  · cases h
    exact ⟨rfl, rfl⟩
  · cases h

section
variable (issuer : CookieIssuer) (now : Nat) (req : BrowserRequest) (cookies : List (List UInt8))

/-- What an answer may be, given the token that was consumed for it. -/
def Answers (spent : Option String) (answer : PairAnswer × CookieIssuer) : Prop :=
  match spent with
  | none => answer.2 = issuer ∧
      forall location setCookie, answer.1 = PairAnswer.redirect location setCookie ->
        setCookie = none ∧ LeadsToApp req location
  | some token => param "token" (parseQuery (req.query.getD "")) = some token ∧
      answer.2 = (issuer.consumeToken now token).2 ∧
      forall location setCookie, answer.1 = PairAnswer.redirect location setCookie ->
        issuer.live now token = true ∧ LeadsToApp req location

theorem answers_error (status : Nat) (msg : String) :
    Answers issuer now req none (PairAnswer.error status msg, issuer) :=
  ⟨rfl, nofun⟩

theorem answers_notPairedPage : Answers issuer now req none (PairAnswer.notPairedPage, issuer) :=
  ⟨rfl, nofun⟩

variable {issuer now req}

/-- A browser that is paired already is sent on. -/
theorem answers_paired {location : String} (hleads : LeadsToApp req location) :
    Answers issuer now req none (redirect location none, issuer) := by
  constructor
  · rfl
  · intro location' setCookie hredirect
    rcases redirect_eq_redirect hredirect with ⟨rfl, rfl⟩
    exact ⟨rfl, hleads⟩

/-- A token pairs a browser if it is live. -/
theorem answers_token {location token : String} (hleads : LeadsToApp req location)
    (htoken : param "token" (parseQuery (req.query.getD "")) = some token) :
    Answers issuer now req (some token)
      (if (issuer.consumeToken now token).1 = true then
        (redirect location (some issuer.setCookieHeader), (issuer.consumeToken now token).2)
      else (PairAnswer.notPairedPage, (issuer.consumeToken now token).2)) := by
  refine ⟨htoken, ?_, ?_⟩
  · split <;> rfl
  · intro location' setCookie hredirect
    split at hredirect
    · rename_i hlive
      rcases redirect_eq_redirect hredirect with ⟨rfl, rfl⟩
      exact ⟨hlive, hleads⟩
    · cases hredirect

variable (issuer now req)

theorem answerPair_answers (hpath : req.path = "/pair") :
    Answers issuer now req (spentToken issuer req cookies) (answerPair issuer now req cookies) := by
  unfold answerPair spentToken
  simp only [hpath, true_and]
  cases hshare : param "share" (parseQuery (req.query.getD "")) with
  | none => exact answers_error issuer now req _ _
  | some share =>
      cases happ : param "app" (parseQuery (req.query.getD "")) with
      | none => exact answers_error issuer now req _ _
      | some app =>
          simp only
          by_cases hlabels : isDnsLabel share = true ∧ isDnsLabel app = true
          · rcases hlabels with ⟨hshare', happ'⟩
            generalize (param "path" (parseQuery (req.query.getD ""))).getD "/" = path
            by_cases habsolute : path.toList.head? = some '/'
            · have hleads : LeadsToApp req
                  ("http://" ++ app ++ "." ++ share ++ "." ++ req.host ++ path) :=
                ⟨app, share, path, happ', hshare', habsolute, rfl⟩
              cases hpaired : issuer.requiredCookie.isPresentedIn cookies with
              | true =>
                  simp [hshare', happ', habsolute]
                  exact answers_paired hleads
              | false =>
                  cases htoken : param "token" (parseQuery (req.query.getD "")) with
                  | none =>
                      simp [hshare', happ', habsolute]
                      exact answers_notPairedPage issuer now req
                  | some token =>
                      simp [hshare', happ', habsolute]
                      exact answers_token hleads htoken
            · simp [hshare', happ', habsolute]
              exact answers_error issuer now req _ _
          · rw [if_neg (fun h => hlabels ⟨h.left, h.right.left⟩)]
            have hbad : (!isDnsLabel share || !isDnsLabel app) = true := by
              rw [Bool.or_eq_true, Bool.not_eq_true', Bool.not_eq_true']
              by_cases hshare' : isDnsLabel share = true
              · exact Or.inr (Bool.eq_false_iff.mpr fun happ' => hlabels ⟨hshare', happ'⟩)
              · exact Or.inl (Bool.eq_false_iff.mpr hshare')
            rw [if_pos hbad]
            exact answers_error issuer now req _ _

/-- There is nothing else the proxy's own host answers. -/
theorem answerOwnHost_answers :
    Answers issuer now req (spentToken issuer req cookies)
      (answerOwnHost issuer now req cookies) := by
  unfold answerOwnHost
  by_cases hpath : req.path = "/pair"
  · rw [if_pos hpath]
    exact answerPair_answers issuer now req cookies hpath
  · have hspent : spentToken issuer req cookies = none := by
      unfold spentToken
      simp only [hpath, false_and, if_false]
      cases param "share" (parseQuery (req.query.getD "")) with
      | none => rfl
      | some share => cases param "app" (parseQuery (req.query.getD "")) <;> rfl
    rw [if_neg hpath, hspent]
    exact answers_error issuer now req _ _

end

/-!
## Where a redirect leads
-/

/-- The characters that end an authority, or that a browser leaves out of a URL. -/
def isAuthorityEnd (c : Char) : Bool :=
  c = '/' || c = '\\' || c = '?' || c = '#'

def isLeftOut (c : Char) : Bool :=
  c = '\t' || c = '\n' || c = '\r'

/-- The authority of an `http` URL as a browser takes it. -/
def urlAuthority (url : String) : Option String :=
  ((url.toList.filter fun c => !isLeftOut c).dropPrefix? "http://".toList).map fun rest =>
    String.ofList (rest.takeWhile fun c => !isAuthorityEnd c)

theorem urlAuthority_append {authority path : String}
    (hauthority : forall c, c ∈ authority.toList -> isLeftOut c = false ∧ isAuthorityEnd c = false)
    (hpath : path.toList.head? = some '/') :
    urlAuthority ("http://" ++ authority ++ path) = some authority := by
  have hkept : authority.toList.filter (fun c => !isLeftOut c) = authority.toList := by
    rw [List.filter_eq_self]
    intro c hc
    rw [(hauthority c hc).left]
    rfl
  have hscheme : "http://".toList.filter (fun c => !isLeftOut c) = "http://".toList := by decide
  rcases List.head?_eq_some_iff.mp hpath with ⟨rest, hrest⟩
  have hlist : ("http://" ++ authority ++ path).toList.filter (fun c => !isLeftOut c) =
      "http://".toList ++ (authority.toList ++ '/' :: rest.filter fun c => !isLeftOut c) := by
    rw [String.toList_append, String.toList_append, List.filter_append, List.filter_append,
      hscheme, hkept, hrest, List.filter_cons_of_pos (by decide), List.append_assoc]
  have hfront : forall tail : List Char,
      ("http://".toList ++ tail).dropPrefix? "http://".toList = some tail := by
    intro tail
    rw [List.dropPrefix?_eq_some_iff]
    exact ⟨_, rfl, BEq.rfl⟩
  unfold urlAuthority
  rw [hlist, hfront, Option.map_some, List.takeWhile_append_of_pos, List.takeWhile_cons_of_neg,
    List.append_nil, String.ofList_toList]
  · decide
  · intro c hc
    rw [(hauthority c hc).right]
    rfl

/-- The characters of labels and ports. -/
def isHostChar (c : Char) : Bool :=
  c.isAlphanum || c == '-' || c == '.' || c == ':'

theorem isHostChar_spec {c : Char} (h : isHostChar c = true) :
    isLeftOut c = false ∧ isAuthorityEnd c = false := by
  have hascii : c.toNat < 128 := by
    unfold isHostChar at h
    simp only [Bool.or_eq_true, beq_iff_eq] at h
    rcases h with ((halnum | rfl) | rfl) | rfl
    · exact ascii_of_isAlphanum halnum
    · decide
    · decide
    · decide
  have hall : forall c : Char, c.toNat < 128 -> isHostChar c = true ->
      isLeftOut c = false ∧ isAuthorityEnd c = false :=
    forall_ascii (by decide)
  exact hall c hascii h

theorem isHostChar_of_isDnsLabel {label : String} (h : isDnsLabel label = true) :
    label.toList.all isHostChar = true := by
  unfold isDnsLabel at h
  rw [Bool.and_eq_true, List.all_eq_true] at h
  refine List.all_eq_true.mpr fun c hc => ?_
  unfold isHostChar
  rw [h.right c hc, Bool.true_or, Bool.true_or]

theorem isHostChar_of_isPort {port : String} (h : IsPort port) :
    port.toList.all isHostChar = true := by
  rcases h with rfl | ⟨digits, hdigits, rfl⟩
  · rfl
  · have hall : forall c : Char, c.toNat < 128 -> c.isDigit = true -> isHostChar c = true :=
      forall_ascii (by decide)
    have hcolon : ":".toList.all isHostChar = true := by decide
    rw [String.toList_append, List.all_append, hcolon, Bool.true_and, String.toList_ofList,
      List.all_eq_true]
    exact fun c hc => hall c (ascii_of_isDigit (hdigits c hc)) (hdigits c hc)

/-- A redirect leads to an app's address, on the port of the request. -/
theorem urlAuthority_of_leadsToApp {req : BrowserRequest} {location : String}
    (hroute : parseHost req.host = some Route.proxy) (h : LeadsToApp req location) :
    exists app share port, isDnsLabel app = true ∧ isDnsLabel share = true ∧ IsPort port ∧
      req.host = proxyDomain ++ port ∧
      urlAuthority location = some (appHost app share ++ port) := by
  rcases parseHost_eq_proxy hroute with ⟨port, hport, hhost⟩
  rcases h with ⟨app, share, path, happ, hshare, hpath, rfl⟩
  refine ⟨app, share, port, happ, hshare, hport, hhost, ?_⟩
  have hwhole : "http://" ++ app ++ "." ++ share ++ "." ++ req.host ++ path =
      "http://" ++ (appHost app share ++ port) ++ path := by
    unfold appHost
    rw [hhost]
    simp only [String.append_assoc]
  have hchars : (appHost app share ++ port).toList.all isHostChar = true := by
    have hdot : ".".toList.all isHostChar = true := by decide
    have hdomain : proxyDomain.toList.all isHostChar = true := by decide
    unfold appHost
    simp only [String.toList_append, List.all_append, isHostChar_of_isDnsLabel happ,
      isHostChar_of_isDnsLabel hshare, isHostChar_of_isPort hport, hdot, hdomain, Bool.and_self]
  rw [hwhole]
  refine urlAuthority_append ?_ hpath
  intro c hc
  exact isHostChar_spec (List.all_eq_true.mp hchars c hc)

/-!
## The books of the issuer
-/

theorem MintedSecret.text_inj {token token' : MintedSecret} :
    token.text = token'.text <-> token = token' := by
  constructor
  · intro h
    cases token
    cases token'
    cases h
    rfl
  · intro heq
    subst heq
    rfl

namespace CookieIssuer

/-- What the issuer notes for a token with this deadline. -/
def noted (issuer : CookieIssuer) (deadline : Nat) : Option Nat :=
  issuer.checkedAdd deadline 0

theorem checkedAdd_eq_noted (issuer : CookieIssuer) (now lifetime : Nat) :
    issuer.checkedAdd now lifetime = issuer.noted (now + lifetime) :=
  rfl

/-- An instant past the end of time never comes. -/
theorem unexpired_noted_iff {issuer : CookieIssuer} {now deadline : Nat}
    (hnow : now ≤ issuer.endOfTime) :
    unexpired now (issuer.noted deadline) = true <-> now < deadline := by
  unfold noted checkedAdd unexpired
  by_cases hrange : deadline + 0 ≤ issuer.endOfTime
  · rw [if_pos hrange]
    exact decide_eq_true_iff
  · rw [if_neg hrange]
    constructor
    · intro _
      omega
    · intro _
      rfl

/-- Either way the token is spent. -/
theorem consumeToken_snd (issuer : CookieIssuer) (now : Nat) (token : String) :
    (issuer.consumeToken now token).2 =
      { issuer with tokens := issuer.tokens.filter fun t => t.1.text ≠ token } := by
  unfold consumeToken
  cases hfind : issuer.tokens.find? fun t => t.1.text = token with
  | none =>
      have hall : issuer.tokens.filter (fun t => t.1.text ≠ token) = issuer.tokens := by
        rw [List.filter_eq_self]
        intro t ht
        simpa using List.find?_eq_none.mp hfind t ht
      rw [hall]
  | some found =>
      have htext : found.1.text = token := by simpa using List.find?_some hfind
      have hsame : forall t : MintedSecret × Option Nat, t.1 ≠ found.1 <-> t.1.text ≠ token := by
        intro t
        rw [← htext, not_iff_not]
        exact MintedSecret.text_inj.symm
      simp only [hsame]

/-- A token is live if it is noted and its time has not come. -/
theorem live_iff {issuer : CookieIssuer} (hkeys : (issuer.tokens.map Prod.fst).Nodup) {now : Nat}
    {token : String} :
    issuer.live now token = true <->
      exists minted expiry, (minted, expiry) ∈ issuer.tokens ∧ minted.text = token ∧
        unexpired now expiry = true := by
  unfold live consumeToken
  cases hfind : issuer.tokens.find? fun t => t.1.text = token with
  | none =>
      constructor
      · nofun
      · intro h
        rcases h with ⟨minted, expiry, hmem, htext, _⟩
        exact absurd (decide_eq_true htext) (List.find?_eq_none.mp hfind _ hmem)
  | some found =>
      rcases found with ⟨minted, expiry⟩
      have hmem := List.mem_of_find?_eq_some hfind
      have htext : minted.text = token := by simpa using List.find?_some hfind
      constructor
      · intro hlive
        exact ⟨minted, expiry, hmem, htext, hlive⟩
      · intro h
        rcases h with ⟨minted', expiry', hmem', htext', hlive⟩
        have hminted : minted' = minted := MintedSecret.text_inj.mp (htext'.trans htext.symm)
        have hpair := List.inj_on_of_nodup_map hkeys hmem' hmem hminted
        cases hpair
        exact hlive

end CookieIssuer

/-- What a step does to the tokens, and what it adds to their history. -/
inductive TokenEffect (s : TokenState) : TokenState -> List (LedgerEvent String Nat) -> Prop where
  | ticked (now : Nat) (hle : s.now ≤ now) (hend : now ≤ s.issuer.endOfTime) :
      TokenEffect s { s with now := now } []
  | started (token : MintedSecret) :
      TokenEffect s
        { s with mints := s.mints ++ [{ token := token, now := s.now, stored := false }] } []
  | stored (call : Nat) (mint : MintCall) (hmint : s.mints[call]? = some mint) :
      TokenEffect s
        { s with
          issuer := s.issuer.mintToken mint.now mint.token
          mints := s.mints.set call { mint with stored := true } }
        [issued mint.token.text (mint.now + s.issuer.tokenLifetime)]
  | spent (token : String) :
      TokenEffect s { s with issuer := (s.issuer.consumeToken s.now token).2 }
        [used token s.now (s.issuer.live s.now token)]
  | answered : TokenEffect s s []

theorem tokenStep_effect {s s' : TokenState} {a : TokenAction} (hstep : tokenStep s a = some s') :
    TokenEffect s s' (tokenEvent s a).toList := by
  cases a with
  | tick now =>
      simp only [tokenStep] at hstep
      split at hstep
      · rename_i hclock
        cases hstep
        exact TokenEffect.ticked now hclock.left hclock.right
      · cases hstep
  | startMint token =>
      cases hstep
      exact TokenEffect.started token
  | storeToken call =>
      cases hmint : s.mints[call]? with
      | none => simp [tokenStep, hmint] at hstep
      | some mint =>
          cases hstored : mint.stored with
          | true => simp [tokenStep, hmint, hstored] at hstep
          | false =>
              simp only [tokenStep, hmint, hstored, Bool.false_eq_true, if_false,
                Option.some.injEq] at hstep
              simp only [tokenEvent, hmint, hstored, Bool.false_eq_true, if_false,
                Option.toList_some]
              rw [← hstep]
              exact TokenEffect.stored call mint hmint
  | consume token =>
      cases hstep
      exact TokenEffect.spent token
  | pair req cookies =>
      have hanswers := answerOwnHost_answers s.issuer s.now req cookies
      cases hstep
      cases hspent : spentToken s.issuer req cookies with
      | none =>
          rw [hspent] at hanswers
          simp only [tokenEvent, hspent, Option.map_none, Option.toList_none]
          rw [hanswers.left]
          exact TokenEffect.answered
      | some token =>
          rw [hspent] at hanswers
          simp only [tokenEvent, hspent, Option.map_some, Option.toList_some]
          rw [hanswers.right.left]
          exact TokenEffect.spent token

theorem tokenHistory_cons {s mid : TokenState} {a : TokenAction} (hstep : tokenStep s a = some mid)
    (rest : List TokenAction) :
    tokenHistory s (a :: rest) = (tokenEvent s a).toList ++ tokenHistory mid rest := by
  rw [tokenHistory, observations, hstep]
  rfl

/-!
## What is noted is outstanding
-/

structure TokenState.Sound (s : TokenState) (history : List (LedgerEvent String Nat)) : Prop where
  noted : forall token expiry, (token, expiry) ∈ s.issuer.tokens ->
    exists deadline, Outstanding history token.text deadline ∧ expiry = s.issuer.noted deadline
  keys : (s.issuer.tokens.map Prod.fst).Nodup
  now_le : s.now ≤ s.issuer.endOfTime
  mints : forall mint, mint ∈ s.mints -> mint.now ≤ s.now

theorem sound_start {issuer : CookieIssuer} {now : Nat} (hfresh : issuer.tokens = [])
    (hnow : now ≤ issuer.endOfTime) : (TokenState.start issuer now).Sound [] where
  noted := by
    intro token expiry hmem
    have hnone : (token, expiry) ∈ issuer.tokens := hmem
    rw [hfresh] at hnone
    cases hnone
  keys := by
    show (issuer.tokens.map Prod.fst).Nodup
    rw [hfresh]
    exact List.nodup_nil
  now_le := hnow
  mints := nofun

section
variable {s s' : TokenState} {history events : List (LedgerEvent String Nat)}

theorem TokenState.Sound.effect (h : s.Sound history) (heffect : TokenEffect s s' events) :
    s'.Sound (history ++ events) := by
  cases heffect with
  | ticked now hle hend =>
      rw [List.append_nil]
      exact ⟨h.noted, h.keys, hend, fun mint hmint => Nat.le_trans (h.mints mint hmint) hle⟩
  | started token =>
      rw [List.append_nil]
      refine ⟨h.noted, h.keys, h.now_le, ?_⟩
      intro mint hmint
      rcases List.mem_append.mp hmint with hmem | hlast
      · exact h.mints mint hmem
      · rw [List.mem_singleton.mp hlast]
  | stored call mint hmint =>
      have hearly : mint.now ≤ s.now := h.mints mint (List.mem_of_getElem? hmint)
      constructor
      · intro minted expiry hmem
        rcases List.mem_append.mp hmem with hold | hlast
        · rcases h.noted minted expiry (List.mem_filter.mp hold).left with
            ⟨deadline, hout, hexpiry⟩
          exact ⟨deadline, outstanding_concat_issued_iff.mpr (Or.inr hout), hexpiry⟩
        · cases List.mem_singleton.mp hlast
          exact ⟨_, outstanding_concat_issued_iff.mpr (Or.inl ⟨rfl, rfl⟩), rfl⟩
      · unfold CookieIssuer.mintToken
        rw [List.map_append, List.nodup_append]
        refine ⟨(List.filter_sublist.map _).nodup h.keys, List.nodup_singleton _, ?_⟩
        intro minted hminted token htoken hsame
        rcases List.mem_map.mp hminted with ⟨p, hp, rfl⟩
        have hother := (List.mem_filter.mp hp).right
        rw [Bool.and_eq_true, decide_eq_true_eq] at hother
        exact hother.right (hsame.trans (List.mem_singleton.mp htoken))
      · exact h.now_le
      · intro mint' hmint'
        rcases List.mem_or_eq_of_mem_set hmint' with hmem | rfl
        · exact h.mints mint' hmem
        · exact hearly
  | spent token =>
      rw [CookieIssuer.consumeToken_snd]
      refine ⟨?_, (List.filter_sublist.map _).nodup h.keys, h.now_le, h.mints⟩
      intro minted expiry hmem
      rcases List.mem_filter.mp hmem with ⟨hmem', hother⟩
      rcases h.noted minted expiry hmem' with ⟨deadline, hout, hexpiry⟩
      exact ⟨deadline, outstanding_concat_used_iff.mpr ⟨by simpa using hother, hout⟩, hexpiry⟩
  | answered =>
      rw [List.append_nil]
      exact h

theorem run_sound {acts : List TokenAction} (hrun : Run tokenStep s acts s')
    (h : s.Sound history) : s'.Sound (history ++ tokenHistory s acts) := by
  induction hrun generalizing history with
  | nil s =>
      rw [tokenHistory, observations, List.append_nil]
      exact h
  | cons hstep _ ih =>
      rw [tokenHistory_cons hstep, ← List.append_assoc]
      exact ih (h.effect (tokenStep_effect hstep))

/-- Only an outstanding token is live. -/
theorem TokenState.Sound.outstanding (h : s.Sound history) {token : String}
    (hlive : s.issuer.live s.now token = true) :
    exists deadline, Outstanding history token deadline ∧ s.now < deadline := by
  rcases (CookieIssuer.live_iff h.keys).mp hlive with ⟨minted, expiry, hmem, rfl, hunexpired⟩
  rcases h.noted minted expiry hmem with ⟨deadline, hout, rfl⟩
  exact ⟨deadline, hout, (CookieIssuer.unexpired_noted_iff h.now_le).mp hunexpired⟩

/-- A text that was never minted is not noted, and consuming it changes nothing. -/
theorem TokenState.Sound.consume_unknown (h : s.Sound history) {token : String}
    (hunknown : token ∉ issuedTokens history) (now : Nat) :
    s.issuer.consumeToken now token = (false, s.issuer) := by
  have hnone : s.issuer.tokens.find? (fun t => t.1.text = token) = none := by
    rw [List.find?_eq_none]
    intro t ht htext
    rcases h.noted t.1 t.2 ht with ⟨deadline, hout, _⟩
    rw [of_decide_eq_true htext] at hout
    exact hunknown (mem_issuedTokens_of_outstanding hout)
  unfold CookieIssuer.consumeToken
  rw [hnone]

/-!
## What is outstanding is noted
-/

/-- A token is noted as long as it is outstanding and its deadline is to come. -/
def TokenState.Keeps (s : TokenState) (history : List (LedgerEvent String Nat)) : Prop :=
  forall text deadline, Outstanding history text deadline -> s.now < deadline ->
    exists token : MintedSecret, token.text = text ∧
      (token, s.issuer.noted deadline) ∈ s.issuer.tokens

/-- A late mint throws out only what is past its deadline. -/
theorem TokenState.Keeps.effect (hkeeps : s.Keeps history) (h : s.Sound history)
    (heffect : TokenEffect s s' events) (hdiff : (issuedTokens (history ++ events)).Nodup) :
    s'.Keeps (history ++ events) := by
  cases heffect with
  | ticked now hle hend =>
      rw [List.append_nil]
      exact fun text deadline hout hlt => hkeeps text deadline hout (Nat.lt_of_le_of_lt hle hlt)
  | started token =>
      rw [List.append_nil]
      exact hkeeps
  | stored call mint hmint =>
      have hearly : mint.now ≤ s.now := h.mints mint (List.mem_of_getElem? hmint)
      intro text deadline hout hlt
      rcases outstanding_concat_issued_iff.mp hout with ⟨rfl, rfl⟩ | hout'
      · exact ⟨mint.token, rfl, List.mem_append_right _ (List.mem_singleton.mpr rfl)⟩
      · rcases hkeeps text deadline hout' hlt with ⟨minted, htext, hmem⟩
        have hother : minted ≠ mint.token := by
          intro heq
          subst heq
          have hnew := not_mem_of_nodup_concat hdiff
          rw [htext] at hnew
          exact hnew (mem_issuedTokens_of_outstanding hout')
        have hunexpired : CookieIssuer.unexpired mint.now (s.issuer.noted deadline) = true :=
          (CookieIssuer.unexpired_noted_iff (Nat.le_trans hearly h.now_le)).mpr
            (Nat.lt_of_le_of_lt hearly hlt)
        refine ⟨minted, htext, List.mem_append_left _ (List.mem_filter.mpr ⟨hmem, ?_⟩)⟩
        rw [Bool.and_eq_true]
        exact ⟨hunexpired, decide_eq_true hother⟩
  | spent token =>
      rw [CookieIssuer.consumeToken_snd]
      intro text deadline hout hlt
      rcases outstanding_concat_used_iff.mp hout with ⟨hother, hout'⟩
      rcases hkeeps text deadline hout' hlt with ⟨minted, htext, hmem⟩
      refine ⟨minted, htext, List.mem_filter.mpr ⟨hmem, ?_⟩⟩
      simpa [htext] using hother
  | answered =>
      rw [List.append_nil]
      exact hkeeps

/-- A use is accepted if, and only if, the history says so. -/
theorem live_iff_outstanding (h : s.Sound history) (hkeeps : s.Keeps history) {token : String} :
    s.issuer.live s.now token = true <->
      exists deadline, Outstanding history token deadline ∧ s.now < deadline := by
  constructor
  · exact h.outstanding
  · intro hlive
    rcases hlive with ⟨deadline, hout, hlt⟩
    rcases hkeeps token deadline hout hlt with ⟨minted, htext, hmem⟩
    rw [CookieIssuer.live_iff h.keys]
    exact ⟨minted, _, hmem, htext, (CookieIssuer.unexpired_noted_iff h.now_le).mpr hlt⟩

theorem exact_effect (hexact : Exact history) (h : s.Sound history) (hkeeps : s.Keeps history)
    (heffect : TokenEffect s s' events) : Exact (history ++ events) := by
  cases heffect with
  | ticked now hle hend =>
      rw [List.append_nil]
      exact hexact
  | started token =>
      rw [List.append_nil]
      exact hexact
  | stored call mint hmint => exact exact_concat_issued hexact _ _
  | spent token => exact exact_concat_used hexact (live_iff_outstanding h hkeeps)
  | answered =>
      rw [List.append_nil]
      exact hexact

/-- A mint takes no live token away. -/
theorem live_after_mint (h : s.Sound history) (hkeeps : s.Keeps history) {call : Nat}
    (hstep : tokenStep s (TokenAction.storeToken call) = some s')
    (hdiff : (issuedTokens
      (history ++ (tokenEvent s (TokenAction.storeToken call)).toList)).Nodup)
    {token : String} (hlive : s.issuer.live s.now token = true) :
    s'.issuer.live s'.now token = true := by
  have heffect := tokenStep_effect hstep
  rw [live_iff_outstanding (h.effect heffect) (hkeeps.effect h heffect hdiff)]
  rcases h.outstanding hlive with ⟨deadline, hout, hlt⟩
  cases hmint : s.mints[call]? with
  | none => simp [tokenStep, hmint] at hstep
  | some mint =>
      cases hstored : mint.stored with
      | true => simp [tokenStep, hmint, hstored] at hstep
      | false =>
          simp only [tokenStep, hmint, hstored, Bool.false_eq_true, if_false,
            Option.some.injEq] at hstep
          simp only [tokenEvent, hmint, hstored, Bool.false_eq_true, if_false, Option.toList_some]
          rw [← hstep]
          exact ⟨deadline, outstanding_concat_issued_iff.mpr (Or.inr hout), hlt⟩

theorem nodup_issuedTokens_append {back : List (LedgerEvent String Nat)}
    (h : (issuedTokens (history ++ back)).Nodup) : (issuedTokens history).Nodup := by
  unfold issuedTokens at h ⊢
  rw [List.filterMap_append] at h
  exact (List.nodup_append.mp h).left

/-- Where the minted tokens differ, every use is answered as the history has it. -/
theorem run_exact {acts : List TokenAction} (hrun : Run tokenStep s acts s')
    (h : s.Sound history) (hkeeps : s.Keeps history) (hexact : Exact history)
    (hdiff : (issuedTokens (history ++ tokenHistory s acts)).Nodup) :
    s'.Keeps (history ++ tokenHistory s acts) ∧ Exact (history ++ tokenHistory s acts) := by
  induction hrun generalizing history with
  | nil s =>
      rw [tokenHistory, observations, List.append_nil]
      exact ⟨hkeeps, hexact⟩
  | cons hstep _ ih =>
      rw [tokenHistory_cons hstep, ← List.append_assoc] at hdiff ⊢
      have heffect := tokenStep_effect hstep
      exact ih (h.effect heffect)
        (hkeeps.effect h heffect (nodup_issuedTokens_append hdiff))
        (exact_effect hexact h hkeeps heffect) hdiff

end

/-!
## Tokens are one-time
-/

section
variable {issuer : CookieIssuer} {now : Nat} {acts : List TokenAction} {s : TokenState}

/-- In every run of an issuer whose tokens differ, a token is accepted if and only if it was
minted, not consumed since, and not yet expired; a mint takes no live token away; and to
consume a text that was never minted changes nothing. -/
theorem pairing_tokens_are_one_time (hfresh : issuer.tokens = []) (hnow : now ≤ issuer.endOfTime)
    (hrun : Run tokenStep (TokenState.start issuer now) acts s)
    (hdiff : (issuedTokens (tokenHistory (TokenState.start issuer now) acts)).Nodup) :
    Exact (tokenHistory (TokenState.start issuer now) acts) ∧
    (forall front back call mid mid', acts = front ++ TokenAction.storeToken call :: back ->
      Run tokenStep (TokenState.start issuer now) front mid ->
        tokenStep mid (TokenAction.storeToken call) = some mid' ->
          forall token, mid.issuer.live mid.now token = true ->
            mid'.issuer.live mid'.now token = true) ∧
    forall token, token ∉ issuedTokens (tokenHistory (TokenState.start issuer now) acts) ->
      s.issuer.consumeToken s.now token = (false, s.issuer) := by
  have hsound := sound_start hfresh hnow
  have hkeeps : (TokenState.start issuer now).Keeps [] :=
    fun _ _ hout _ => absurd hout not_outstanding_nil
  refine ⟨?_, ?_, ?_⟩
  · exact (run_exact hrun hsound hkeeps exact_nil hdiff).right
  · intro front back call mid mid' hacts hfront hstep token hlive
    have hhistory : tokenHistory (TokenState.start issuer now) acts =
        tokenHistory (TokenState.start issuer now) front ++
          ((tokenEvent mid (TokenAction.storeToken call)).toList ++ tokenHistory mid' back) := by
      rw [hacts, tokenHistory, observations_append hfront, ← tokenHistory_cons hstep]
      rfl
    rw [hhistory, ← List.append_assoc] at hdiff
    have hdiffMid := nodup_issuedTokens_append hdiff
    have hdiffFront := nodup_issuedTokens_append hdiffMid
    have hsoundMid := run_sound hfront hsound
    have hkeepsMid := (run_exact hfront hsound hkeeps exact_nil hdiffFront).left
    exact live_after_mint hsoundMid hkeepsMid hstep hdiffMid hlive
  · intro token hunknown
    exact (run_sound hrun hsound).consume_unknown hunknown s.now

end

/-- A text was minted with a deadline that is to come, and nobody ever consumed it. -/
def NeverUsed (history : List (LedgerEvent String Nat)) (token : String) (now : Nat) : Prop :=
  (exists deadline, issued token deadline ∈ history ∧ now < deadline) ∧
    forall time accepted, used token time accepted ∉ history

/-- An issuer that has not handed out anything yet. -/
def freshIssuer : CookieIssuer :=
  { someIssuer with tokens := [] }

/-- A guess before the mint, the mint, and the use of the token. -/
def guessedFirst : List TokenAction :=
  [TokenAction.consume someSecret.text, TokenAction.startMint someSecret,
    TokenAction.storeToken 0, TokenAction.consume someSecret.text]

theorem tokenHistory_guessedFirst :
    tokenHistory (TokenState.start freshIssuer 0) guessedFirst =
      [used someSecret.text 0 false, issued someSecret.text 60, used someSecret.text 0 true] := by
  decide +kernel

/-- A token is accepted although its text was consumed before, when it was not minted yet. -/
theorem guess_does_not_spend_token :
    exists s, Run tokenStep (TokenState.start freshIssuer 0) guessedFirst s ∧
      (issuedTokens (tokenHistory (TokenState.start freshIssuer 0) guessedFirst)).Nodup ∧
      ¬ forall front back token now accepted,
        tokenHistory (TokenState.start freshIssuer 0) guessedFirst =
            front ++ used token now accepted :: back ->
          (accepted = true <-> NeverUsed front token now) := by
  have hend : (exec tokenStep (TokenState.start freshIssuer 0) guessedFirst).isSome = true := by
    decide +kernel
  rcases Option.isSome_iff_exists.mp hend with ⟨s, hexec⟩
  refine ⟨s, run_iff_exec.mpr hexec, ?_, ?_⟩
  · rw [tokenHistory_guessedFirst]
    exact List.nodup_singleton _
  · intro hliteral
    have hunused := (hliteral [used someSecret.text 0 false, issued someSecret.text 60] []
      someSecret.text 0 true tokenHistory_guessedFirst).mp rfl
    exact hunused.right 0 false (List.mem_cons_self ..)

theorem pairing_tokens_are_one_time_after_guess :
    Exact (tokenHistory (TokenState.start freshIssuer 0) guessedFirst) := by
  have hend : (exec tokenStep (TokenState.start freshIssuer 0) guessedFirst).isSome = true := by
    decide +kernel
  rcases Option.isSome_iff_exists.mp hend with ⟨s, hexec⟩
  refine (pairing_tokens_are_one_time rfl (Nat.zero_le _) (run_iff_exec.mpr hexec) ?_).left
  rw [tokenHistory_guessedFirst]
  exact List.nodup_singleton _

/-!
## The endpoint is no open redirect
-/

/-- For every request to the proxy's own host, in every state an issuer comes to: a redirect
leads to an app of a share on the request's own port, and it sets the cookie only for a
query whose token was minted, not consumed since and not yet expired. -/
theorem pairing_is_no_open_redirect {issuer : CookieIssuer} {now : Nat}
    {acts : List TokenAction} {s : TokenState} (hfresh : issuer.tokens = [])
    (hnow : now ≤ issuer.endOfTime) (hrun : Run tokenStep (TokenState.start issuer now) acts s)
    {req : BrowserRequest} (hroute : parseHost req.host = some Route.proxy)
    {cookies : List (List UInt8)} {location : String} {setCookie : Option String}
    (hanswer : (answerOwnHost s.issuer s.now req cookies).1 =
      PairAnswer.redirect location setCookie) :
    (exists app share port, isDnsLabel app = true ∧ isDnsLabel share = true ∧ IsPort port ∧
      req.host = proxyDomain ++ port ∧
      urlAuthority location = some (appHost app share ++ port)) ∧
    (setCookie ≠ none -> exists token deadline,
      param "token" (parseQuery (req.query.getD "")) = some token ∧
      Outstanding (tokenHistory (TokenState.start issuer now) acts) token deadline ∧
      s.now < deadline) := by
  have hanswers := answerOwnHost_answers s.issuer s.now req cookies
  have hsound := run_sound hrun (sound_start hfresh hnow)
  rw [List.nil_append] at hsound
  cases hspent : spentToken s.issuer req cookies with
  | none =>
      rw [hspent] at hanswers
      rcases hanswers.right location setCookie hanswer with ⟨hnone, hleads⟩
      constructor
      · exact urlAuthority_of_leadsToApp hroute hleads
      · exact fun hsome => absurd hnone hsome
  | some token =>
      rw [hspent] at hanswers
      rcases hanswers.right.right location setCookie hanswer with ⟨hlive, hleads⟩
      constructor
      · exact urlAuthority_of_leadsToApp hroute hleads
      · intro _
        rcases hsound.outstanding hlive with ⟨deadline, hout, hlt⟩
        exact ⟨token, deadline, hanswers.left, hout, hlt⟩

/-- A browser at a pairing URL. -/
def pairingRequest : BrowserRequest where
  host := "wa.localhost:4000"
  path := "/pair"
  query := some ("token=" ++ someSecret.text ++ "&share=family&app=photos&path=//example.org")

theorem pairing_is_no_open_redirect_for_photos :
    exists s location setCookie,
      Run tokenStep (TokenState.start freshIssuer 0)
        [TokenAction.startMint someSecret, TokenAction.storeToken 0] s ∧
      (answerOwnHost s.issuer s.now pairingRequest []).1 =
        PairAnswer.redirect location (some setCookie) ∧
      (exists app share port, isDnsLabel app = true ∧ isDnsLabel share = true ∧ IsPort port ∧
        pairingRequest.host = proxyDomain ++ port ∧
        urlAuthority location = some (appHost app share ++ port)) ∧
      exists token deadline,
        param "token" (parseQuery (pairingRequest.query.getD "")) = some token ∧
        Outstanding (tokenHistory (TokenState.start freshIssuer 0)
          [TokenAction.startMint someSecret, TokenAction.storeToken 0]) token deadline ∧
        s.now < deadline := by
  have hend : ((exec tokenStep (TokenState.start freshIssuer 0)
      [TokenAction.startMint someSecret, TokenAction.storeToken 0]).map fun s =>
        (answerOwnHost s.issuer s.now pairingRequest []).1) =
      some (PairAnswer.redirect "http://photos.family.wa.localhost:4000//example.org"
        (some freshIssuer.setCookieHeader)) := by
    decide +kernel
  rcases Option.map_eq_some_iff.mp hend with ⟨s, hexec, hanswer⟩
  have hrun := run_iff_exec.mpr hexec
  have hroute : parseHost pairingRequest.host = some Route.proxy := by decide +kernel
  rcases pairing_is_no_open_redirect rfl (Nat.zero_le _) hrun hroute hanswer with ⟨hleads, hcookie⟩
  exact ⟨s, _, _, hrun, hanswer, hleads, hcookie nofun⟩

end Guest
end WispersAccess
