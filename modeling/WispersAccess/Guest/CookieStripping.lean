import WispersAccess.Guest.CookieSearch

/-!
# Stripping cookies

Before a request goes on to a shared app, the client takes its own cookies out of
it.  What is left of a header is put together again from the text of its parts.
-/

namespace WispersAccess
namespace Guest

open Foundation
open Wire (ofUtf8 utf8)

/-!
## Headers
-/

/-- The headers of a request: the values under a name keep their order. -/
structure HeaderMap where
  entries : List (String × List UInt8)

namespace HeaderMap

def getAll (headers : HeaderMap) (name : String) : List (List UInt8) :=
  (headers.entries.filter fun e => e.1 = name).map Prod.snd

def remove (headers : HeaderMap) (name : String) : HeaderMap where
  entries := headers.entries.filter fun e => e.1 ≠ name

def append (headers : HeaderMap) (name : String) (value : List UInt8) : HeaderMap where
  entries := headers.entries ++ [(name, value)]

variable (headers : HeaderMap) {name other : String}

@[simp] theorem getAll_remove_self (name : String) : (headers.remove name).getAll name = [] := by
  simp [remove, getAll, List.filter_filter]

theorem getAll_remove_of_ne (h : other ≠ name) :
    (headers.remove name).getAll other = headers.getAll other := by
  unfold remove getAll
  rw [List.filter_filter]
  congr 1
  apply List.filter_congr
  intro e _
  by_cases he : e.1 = other
  · simp [he, h]
  · simp [he]

@[simp] theorem getAll_append_self (name : String) (value : List UInt8) :
    (headers.append name value).getAll name = headers.getAll name ++ [value] := by
  simp [append, getAll, List.filter_append]

theorem getAll_append_of_ne (h : other ≠ name) (value : List UInt8) :
    (headers.append name value).getAll other = headers.getAll other := by
  simp [append, getAll, List.filter_append, Ne.symm h]

/-- Values appended under one name come after those that are there, and change no other name. -/
theorem getAll_appendAll (values : List (List UInt8)) (name other : String) :
    (values.foldl (fun headers value => headers.append name value) headers).getAll other =
      headers.getAll other ++ if other = name then values else [] := by
  induction values generalizing headers with
  | nil => simp
  | cons value rest ih =>
      rw [List.foldl_cons, ih]
      by_cases hother : other = name
      · rw [hother, getAll_append_self, if_pos rfl, if_pos rfl, List.append_assoc,
          List.singleton_append]
      · rw [getAll_append_of_ne _ hother, if_neg hother, if_neg hother]

end HeaderMap

/-- `HeaderValue::from_str`. -/
def headerFromStr (s : String) : Option (List UInt8) :=
  if (utf8 s).all isVisible then some (utf8 s) else none

/-- A `name=value` pair whose name passes. -/
def isStripped (criterion : String -> Bool) (pair : String) : Bool :=
  match splitOnce '=' pair.toList with
  | some (name, _) => criterion (String.ofList name)
  | none => false

/-- One `Cookie` header without the stripped pairs, or nothing. -/
def withoutStripped (criterion : String -> Bool) (header : List UInt8) : Option (List UInt8) := do
  let text <- headerText header
  let pairs := (text.toList.splitOn ';').map fun pair => trim (String.ofList pair)
  let rest := "; ".intercalate (pairs.filter fun pair => !isStripped criterion pair)
  if rest = "" then none else headerFromStr rest

/-- Removes every cookie whose name passes `criterion` from the `Cookie` headers. -/
def stripCookies (headers : HeaderMap) (criterion : String -> Bool) : HeaderMap :=
  let kept := (headers.getAll "cookie").filterMap (withoutStripped criterion)
  kept.foldl (fun headers value => headers.append "cookie" value) (headers.remove "cookie")

/-- Any Wispers Access pairing cookie. -/
def isPairingCookie (name : String) : Bool :=
  "__wispers_access_pairing".toList.isPrefixOf name.toList

/-- `Authenticator::scrub`. -/
def scrub (cookie : RequiredCookie) (headers : HeaderMap) : HeaderMap :=
  stripCookies headers fun name => name = cookie.name || isPairingCookie name

/-!
## Cookies as bytes
-/

/-- The name and the value of a part, if it has an equals sign. -/
def cookiePair (part : List UInt8) : Option (List UInt8 × List UInt8) :=
  splitOnce 61 (trimBlanks part)

/-- The `name=value` parts of a header, in their order. -/
def cookieParts (header : List UInt8) : List (List UInt8 × List UInt8) :=
  (header.splitOn 59).filterMap cookiePair

/-- A name is a text that passes. -/
def passes (criterion : String -> Bool) (name : List UInt8) : Bool :=
  (ofUtf8 name).any criterion

/-- What stripping is to do: the pairs that do not pass are left, in their order, a cookie whose
name passes is not found any more, and the other headers stay as they are. -/
structure Stripped (criterion : String -> Bool) (before after : HeaderMap) : Prop where
  kept : (after.getAll "cookie").flatMap cookieParts =
    ((before.getAll "cookie").flatMap cookieParts).filter fun p => !passes criterion p.1
  hidden : forall cookie : RequiredCookie, criterion cookie.name = true ->
    cookie.isPresentedIn (after.getAll "cookie") = false
  others : forall name, name ≠ "cookie" -> after.getAll name = before.getAll name

section
variable {criterion : String -> Bool}

theorem getAll_stripCookies (headers : HeaderMap) (criterion : String -> Bool) :
    (stripCookies headers criterion).getAll "cookie" =
      (headers.getAll "cookie").filterMap (withoutStripped criterion) := by
  unfold stripCookies
  rw [HeaderMap.getAll_appendAll, HeaderMap.getAll_remove_self, List.nil_append, if_pos rfl]

theorem getAll_stripCookies_of_ne (headers : HeaderMap) (criterion : String -> Bool)
    {name : String} (hname : name ≠ "cookie") :
    (stripCookies headers criterion).getAll name = headers.getAll name := by
  unfold stripCookies
  rw [HeaderMap.getAll_appendAll, HeaderMap.getAll_remove_of_ne _ hname, if_neg hname,
    List.append_nil]

/-!
## Stripping a visible header
-/

/-- The text of visible bytes. -/
def byteText (bytes : List UInt8) : String :=
  String.ofList (bytes.map byteChar)

def Visible (bytes : List UInt8) : Prop :=
  forall b, b ∈ bytes -> isVisible b = true

theorem ofUtf8_visible {bytes : List UInt8} (h : Visible bytes) :
    ofUtf8 bytes = some (byteText bytes) := by
  have hbytes := Wire.ofUtf8_utf8 (byteText bytes)
  rwa [byteText, utf8_byteChars h] at hbytes

theorem splitOnce_map {α β : Type _} [DecidableEq α] [DecidableEq β] {f : α -> β}
    (hf : Function.Injective f) (sep : α) (xs : List α) :
    splitOnce (f sep) (xs.map f) =
      (splitOnce sep xs).map fun p => (p.1.map f, p.2.map f) := by
  induction xs with
  | nil => rfl
  | cons x xs ih =>
      by_cases hx : x = sep
      · simp [splitOnce, hx]
      · have hx' : f x ≠ f sep := fun h => hx (hf h)
        simp only [List.map_cons, splitOnce, if_neg hx, if_neg hx', ih, Option.map_map]
        rfl

theorem map_intercalate {α β : Type _} (f : α -> β) (sep : List α) (parts : List (List α)) :
    (sep.intercalate parts).map f = (sep.map f).intercalate (parts.map (List.map f)) := by
  induction parts with
  | nil => rfl
  | cons part rest ih =>
      cases rest with
      | nil => simp
      | cons next rest =>
          rw [List.intercalate_cons_cons, List.map_append, List.map_append, ih, List.map_cons,
            List.map_cons, List.map_cons, List.intercalate_cons_cons]

/-- A part that a header loses. -/
def isStrippedPart (criterion : String -> Bool) (part : List UInt8) : Bool :=
  match splitOnce 61 part with
  | some (name, _) => passes criterion name
  | none => false

theorem isStripped_byteText {part : List UInt8} (h : Visible part) :
    isStripped criterion (byteText part) = isStrippedPart criterion part := by
  have hequals : '=' = byteChar 61 := by decide
  unfold isStripped isStrippedPart byteText
  rw [String.toList_ofList, hequals, splitOnce_map byteChar_injective]
  cases hsplit : splitOnce 61 part with
  | none => rfl
  | some pair =>
      rcases pair with ⟨name, value⟩
      have hname : Visible name := by
        intro b hb
        apply h
        rw [(splitOnce_some hsplit).left]
        exact List.mem_append_left _ hb
      show criterion (byteText name) = passes criterion name
      unfold passes
      rw [ofUtf8_visible hname]
      rfl

/-- The parts of a header that stay, trimmed. -/
def keptParts (criterion : String -> Bool) (header : List UInt8) : List (List UInt8) :=
  ((header.splitOn 59).map trimBlanks).filter fun part => !isStrippedPart criterion part

theorem visible_of_mem_splitOn {header part : List UInt8} (h : Visible header)
    (hpart : part ∈ (header.splitOn 59).map trimBlanks) : Visible part := by
  rcases List.mem_map.mp hpart with ⟨whole, hwhole, rfl⟩
  intro b hb
  exact h b (mem_of_mem_splitOn hwhole (mem_trimBlanks hb))

/-- The text that is put together is the text of the parts that stay. -/
theorem intercalate_keptParts {header : List UInt8} (h : Visible header) :
    "; ".intercalate ((((byteText header).toList.splitOn ';').map fun pair =>
      trim (String.ofList pair)).filter fun pair => !isStripped criterion pair) =
        byteText ([59, 32].intercalate (keptParts criterion header)) := by
  have hsemicolon : ';' = byteChar 59 := by decide
  have hglue : "; ".toList = [59, 32].map byteChar := by decide
  have hsplit : ((byteText header).toList.splitOn ';').map (fun pair => trim (String.ofList pair)) =
      ((header.splitOn 59).map trimBlanks).map byteText := by
    unfold byteText
    rw [String.toList_ofList, hsemicolon, splitOn_map byteChar_injective, List.map_map,
      List.map_map]
    apply List.map_congr_left
    intro part hpart
    exact trim_byteChars fun b hb => h b (mem_of_mem_splitOn hpart hb)
  have hfilter : (((header.splitOn 59).map trimBlanks).map byteText).filter
      (fun pair => !isStripped criterion pair) = (keptParts criterion header).map byteText := by
    unfold keptParts
    rw [List.filter_map]
    congr 1
    apply List.filter_congr
    intro part hpart
    rw [Function.comp_apply, isStripped_byteText (visible_of_mem_splitOn h hpart)]
  have htexts : ((keptParts criterion header).map byteText).map String.toList =
      (keptParts criterion header).map (List.map byteChar) := by
    rw [List.map_map]
    apply List.map_congr_left
    intro part _
    exact String.toList_ofList
  have hwhole : (byteText ([59, 32].intercalate (keptParts criterion header))).toList =
      ([59, 32].intercalate (keptParts criterion header)).map byteChar :=
    String.toList_ofList
  rw [hsplit, hfilter]
  apply String.toList_inj.mp
  rw [String.toList_intercalate, htexts, hwhole, map_intercalate, hglue]

theorem visible_intercalate {parts : List (List UInt8)}
    (h : forall part, part ∈ parts -> Visible part) : Visible ([59, 32].intercalate parts) := by
  induction parts with
  | nil => nofun
  | cons part rest ih =>
      have hrest := ih fun p hp => h p (List.mem_cons_of_mem _ hp)
      cases rest with
      | nil =>
          rw [List.intercalate_singleton]
          exact h part List.mem_cons_self
      | cons next rest =>
          have hglue : forall b, b ∈ [(59 : UInt8), 32] -> isVisible b = true :=
            List.all_eq_true.mp (by decide)
          intro b hb
          rw [List.intercalate_cons_cons, List.append_assoc, List.mem_append, List.mem_append] at hb
          rcases hb with hfirst | hmid | hlast
          · exact h part List.mem_cons_self b hfirst
          · exact hglue b hmid
          · exact hrest b hlast

/-- A visible header loses the parts whose name passes. -/
theorem withoutStripped_visible {header : List UInt8} (h : Visible header) :
    withoutStripped criterion header =
      if [59, 32].intercalate (keptParts criterion header) = [] then none
      else some ([59, 32].intercalate (keptParts criterion header)) := by
  have htext : headerText header = some (byteText header) :=
    headerText_eq_some_iff.mpr ⟨h, rfl⟩
  have hvisible : Visible ([59, 32].intercalate (keptParts criterion header)) :=
    visible_intercalate fun part hpart => visible_of_mem_splitOn h (List.mem_filter.mp hpart).left
  have hstr : headerFromStr (byteText ([59, 32].intercalate (keptParts criterion header))) =
      some ([59, 32].intercalate (keptParts criterion header)) := by
    unfold headerFromStr byteText
    rw [utf8_byteChars hvisible, if_pos (List.all_eq_true.mpr hvisible)]
  have hempty : byteText ([59, 32].intercalate (keptParts criterion header)) = "" <->
      [59, 32].intercalate (keptParts criterion header) = [] := by
    unfold byteText
    rw [← String.toList_inj, String.toList_ofList]
    simp
  unfold withoutStripped
  simp only [htext, Option.bind_eq_bind, Option.bind_some, intercalate_keptParts h, hstr, hempty]

theorem withoutStripped_invisible {header : List UInt8} (h : ¬ Visible header) :
    withoutStripped criterion header = none := by
  have htext : headerText header = none := by
    cases htext : headerText header with
    | none => rfl
    | some s => exact absurd (headerText_eq_some_iff.mp htext).left h
  unfold withoutStripped
  rw [htext]
  rfl

/-!
## The pairs that are left
-/

theorem filterMap_filter_pairs (criterion : String -> Bool) (parts : List (List UInt8)) :
    (parts.filter fun part => !isStrippedPart criterion part).filterMap (splitOnce 61) =
      (parts.filterMap (splitOnce 61)).filter fun p => !passes criterion p.1 := by
  induction parts with
  | nil => rfl
  | cons part rest ih =>
      cases hsplit : splitOnce 61 part with
      | none =>
          have hkept : isStrippedPart criterion part = false := by
            unfold isStrippedPart
            rw [hsplit]
          rw [List.filter_cons_of_pos (by rw [hkept]; rfl), List.filterMap_cons_none hsplit,
            List.filterMap_cons_none hsplit, ih]
      | some pair =>
          have hpasses : isStrippedPart criterion part = passes criterion pair.1 := by
            unfold isStrippedPart
            rw [hsplit]
          rw [List.filterMap_cons_some hsplit, List.filter_cons, List.filter_cons, hpasses]
          split
          · rw [List.filterMap_cons_some hsplit, ih]
          · exact ih

theorem cookieParts_eq (header : List UInt8) :
    cookieParts header = ((header.splitOn 59).map trimBlanks).filterMap (splitOnce 61) := by
  unfold cookieParts
  rw [List.filterMap_map]
  rfl

theorem filterMap_keptParts (criterion : String -> Bool) (header : List UInt8) :
    (keptParts criterion header).filterMap (splitOnce 61) =
      (cookieParts header).filter fun p => !passes criterion p.1 := by
  rw [cookieParts_eq]
  exact filterMap_filter_pairs criterion _

theorem trimmed_of_mem_keptParts {header part : List UInt8}
    (h : part ∈ keptParts criterion header) : trimBlanks part = part ∧ 59 ∉ part := by
  rcases List.mem_map.mp (List.mem_filter.mp h).left with ⟨whole, hwhole, rfl⟩
  constructor
  · exact trimEnds_trimEnds whole
  · exact fun hmem => not_mem_of_mem_splitOn hwhole (mem_trimBlanks hmem)

/-- A header that is put together has the pairs it is put together from. -/
theorem cookieParts_intercalate {part : List UInt8} {parts : List (List UInt8)}
    (h : forall p, p ∈ part :: parts -> trimBlanks p = p ∧ 59 ∉ p) :
    cookieParts ([59, 32].intercalate (part :: parts)) =
      (part :: parts).filterMap (splitOnce 61) := by
  have hsplit := @splitOn_joined _ _ 59 [32] (by decide) part parts fun p hp => (h p hp).right
  have hblank : forall p, p ∈ parts -> trimBlanks ([32] ++ p) = p := by
    intro p hp
    have hskip : trimBlanks ([32] ++ p) = trimBlanks p := trimEnds_cons_of_pos (by decide)
    rw [hskip, (h p (List.mem_cons_of_mem _ hp)).left]
  have htrimmed : (parts.map ([32] ++ ·)).map trimBlanks = parts := by
    rw [List.map_map]
    exact (List.map_congr_left hblank).trans (List.map_id parts)
  rw [cookieParts_eq, hsplit, List.map_cons, (h part List.mem_cons_self).left, htrimmed]

theorem intercalate_ne_nil {part next : List UInt8} {parts : List (List UInt8)} :
    [59, 32].intercalate (part :: next :: parts) ≠ [] := by
  rw [List.intercalate_cons_cons]
  simp

/-- The pairs that a visible header is left with. -/
theorem cookieParts_withoutStripped {header : List UInt8} (h : Visible header) :
    (withoutStripped criterion header).toList.flatMap cookieParts =
      (cookieParts header).filter fun p => !passes criterion p.1 := by
  rw [withoutStripped_visible h, ← filterMap_keptParts]
  have htrimmed := @trimmed_of_mem_keptParts criterion header
  generalize keptParts criterion header = kept at htrimmed
  cases kept with
  | nil => rfl
  | cons part rest =>
      split
      · rename_i hempty
        cases rest with
        | nil =>
            rw [List.intercalate_singleton] at hempty
            rw [hempty]
            rfl
        | cons next rest => exact absurd hempty intercalate_ne_nil
      · rw [Option.toList_some, List.flatMap_singleton]
        exact cookieParts_intercalate fun p hp => htrimmed hp

/-- The pairs of one header after stripping. -/
theorem stripped_parts_sublist (criterion : String -> Bool) (header : List UInt8) :
    List.Sublist ((withoutStripped criterion header).toList.flatMap cookieParts)
      ((cookieParts header).filter fun p => !passes criterion p.1) := by
  by_cases h : Visible header
  · rw [cookieParts_withoutStripped h]
  · rw [withoutStripped_invisible h]
    exact List.nil_sublist _

theorem flatMap_filterMap {α β γ : Type _} (f : α -> Option β) (g : β -> List γ) (xs : List α) :
    (xs.filterMap f).flatMap g = xs.flatMap fun x => (f x).toList.flatMap g := by
  induction xs with
  | nil => rfl
  | cons x xs ih =>
      cases hx : f x with
      | none => simp [List.filterMap_cons_none hx, hx, ih]
      | some y => simp [List.filterMap_cons_some hx, hx, ih]

/-- Lists put together from shorter pieces are as long only if the pieces are. -/
theorem eq_of_flatMap_eq {α β : Type _} {f g : α -> List β} {xs : List α}
    (hpieces : forall x, x ∈ xs -> List.Sublist (f x) (g x)) (h : xs.flatMap f = xs.flatMap g) :
    forall x, x ∈ xs -> f x = g x := by
  induction xs with
  | nil => nofun
  | cons x xs ih =>
      have hx := hpieces x List.mem_cons_self
      have hxs : forall y, y ∈ xs -> List.Sublist (f y) (g y) :=
        fun y hy => hpieces y (List.mem_cons_of_mem _ hy)
      have hrest : (xs.flatMap f).length ≤ (xs.flatMap g).length := by
        clear ih h hpieces
        induction xs with
        | nil => exact Nat.le_refl _
        | cons y ys ih =>
            have hy := (hxs y List.mem_cons_self).length_le
            have hys := ih fun z hz => hxs z (List.mem_cons_of_mem _ hz)
            rw [List.flatMap_cons, List.flatMap_cons, List.length_append, List.length_append]
            omega
      have hlengths := congrArg List.length h
      rw [List.flatMap_cons, List.flatMap_cons, List.length_append, List.length_append] at hlengths
      have hfirst : f x = g x := by
        apply hx.eq_of_length
        have hle := hx.length_le
        omega
      rw [List.flatMap_cons, List.flatMap_cons, hfirst] at h
      intro y hy
      rcases List.mem_cons.mp hy with heq | hy
      · rw [heq, hfirst]
      · exact ih hxs (List.append_cancel_left h) y hy

/-- No pair that passes is left. -/
theorem not_passes_of_stripped {headers : HeaderMap} {header : List UInt8}
    (hheader : header ∈ (stripCookies headers criterion).getAll "cookie")
    {pair : List UInt8 × List UInt8} (hpair : pair ∈ cookieParts header) :
    passes criterion pair.1 = false := by
  rw [getAll_stripCookies] at hheader
  rcases List.mem_filterMap.mp hheader with ⟨before, -, hbefore⟩
  have hmem : pair ∈ (withoutStripped criterion before).toList.flatMap cookieParts := by
    rw [hbefore]
    simpa using hpair
  have hkept := (stripped_parts_sublist criterion before).subset hmem
  simpa using (List.mem_filter.mp hkept).right

/-- A cookie whose name passes is not found any more. -/
theorem isPresentedIn_stripCookies (headers : HeaderMap) {cookie : RequiredCookie}
    (hcookie : criterion cookie.name = true) :
    cookie.isPresentedIn ((stripCookies headers criterion).getAll "cookie") = false := by
  by_contra hpresented
  rw [Bool.not_eq_false, RequiredCookie.isPresentedIn_iff] at hpresented
  rcases hpresented with ⟨hname, header, hheader, -, part, hpart, htrimmed⟩
  have hbytes : utf8 cookie.text = utf8 cookie.name ++ 61 :: utf8 cookie.value := by
    have hsign : utf8 "=" = [61] := by decide
    unfold RequiredCookie.text
    rw [Wire.utf8_append, Wire.utf8_append, hsign, List.append_assoc, List.singleton_append]
  have hequals : 61 ∉ utf8 cookie.name := by
    intro hmem
    exact hname (Wire.mem_toList_of_mem_utf8 hmem (by decide))
  have hpair : (utf8 cookie.name, utf8 cookie.value) ∈ cookieParts header := by
    refine List.mem_filterMap.mpr ⟨part, hpart, ?_⟩
    unfold cookiePair
    rw [htrimmed, hbytes]
    exact splitOnce_append hequals _
  have hpasses := not_passes_of_stripped hheader hpair
  unfold passes at hpasses
  rw [Wire.ofUtf8_utf8] at hpasses
  simp [hcookie] at hpasses

/-- Neither the client's own cookie nor a pairing cookie reaches the app. -/
theorem isPresentedIn_scrub (own : RequiredCookie) (headers : HeaderMap) {cookie : RequiredCookie}
    (hcookie : cookie.name = own.name ∨ isPairingCookie cookie.name = true) :
    cookie.isPresentedIn ((scrub own headers).getAll "cookie") = false := by
  apply isPresentedIn_stripCookies
  rcases hcookie with hown | hpairing
  · simp [hown]
  · simp [hpairing]

/-- Stripping takes what it is to take and nothing else if, and only if, the headers with a byte
outside visible ASCII carry only pairs whose names pass. -/
theorem strip_cookies_iff (criterion : String -> Bool) (headers : HeaderMap) :
    Stripped criterion headers (stripCookies headers criterion) <->
      forall header, header ∈ headers.getAll "cookie" ->
        (exists b, b ∈ header ∧ isVisible b = false) ->
          forall pair, pair ∈ cookieParts header -> passes criterion pair.1 = true := by
  have hleft : (((stripCookies headers criterion).getAll "cookie").flatMap cookieParts =
      ((headers.getAll "cookie").flatMap cookieParts).filter fun p => !passes criterion p.1) <->
      ((headers.getAll "cookie").flatMap
          fun header => (withoutStripped criterion header).toList.flatMap cookieParts) =
        (headers.getAll "cookie").flatMap
          fun header => (cookieParts header).filter fun p => !passes criterion p.1 := by
    rw [getAll_stripCookies, flatMap_filterMap, List.filter_flatMap]
  constructor
  · intro h header hheader hinvisible pair hpair
    have hsame := eq_of_flatMap_eq (fun header _ => stripped_parts_sublist criterion header)
      (hleft.mp h.kept) header hheader
    have hdropped : ¬ Visible header := by
      intro hvisible
      rcases hinvisible with ⟨b, hb, hfalse⟩
      rw [hvisible b hb] at hfalse
      cases hfalse
    rw [withoutStripped_invisible hdropped] at hsame
    have hnone := List.filter_eq_nil_iff.mp hsame.symm pair hpair
    simpa using hnone
  · intro h
    constructor
    · rw [hleft]
      apply List.flatMap_congr
      intro header hheader
      by_cases hvisible : Visible header
      · exact cookieParts_withoutStripped hvisible
      · have hinvisible : exists b, b ∈ header ∧ isVisible b = false := by
          unfold Visible at hvisible
          push Not at hvisible
          simpa using hvisible
        have hnone : (cookieParts header).filter (fun p => !passes criterion p.1) = [] := by
          rw [List.filter_eq_nil_iff]
          intro pair hpair
          simp [h header hheader hinvisible pair hpair]
        rw [withoutStripped_invisible hvisible, hnone]
        rfl
    · intro cookie hcookie
      exact isPresentedIn_stripCookies headers hcookie
    · intro name hname
      exact getAll_stripCookies_of_ne headers criterion hname

end

/-!
## A letter outside ASCII
-/

/-- Two cookies of the app in one header, next to the client's own. -/
def frenchRequest : HeaderMap where
  entries := [("host", utf8 "photos"),
    ("cookie", utf8 "lang=français; __wispers_proxy_auth=s3cret; theme=dark")]

/-- The app's cookies go with the client's own. -/
theorem app_cookies_lost :
    ((frenchRequest.getAll "cookie").flatMap cookieParts).map (fun p => byteText p.1) =
        ["lang", "__wispers_proxy_auth", "theme"] ∧
      (stripCookies frenchRequest fun name => name = "__wispers_proxy_auth").getAll "cookie" =
        [] ∧
      ¬ Stripped (fun name => name = "__wispers_proxy_auth") frenchRequest
        (stripCookies frenchRequest fun name => name = "__wispers_proxy_auth") := by
  have hleft : (stripCookies frenchRequest fun name => name = "__wispers_proxy_auth").getAll
      "cookie" = [] := by
    decide +kernel
  refine ⟨by decide +kernel, hleft, ?_⟩
  intro h
  have hkept := h.kept
  rw [hleft] at hkept
  revert hkept
  decide +kernel

end Guest
end WispersAccess
