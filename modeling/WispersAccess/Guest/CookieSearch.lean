import WispersAccess.Guest.Credentials

/-!
# Finding the pairing cookie

A browser sends all of its cookies for an address in the same headers, and a
shared app sets what cookies it likes.  The search for the client's own cookie
reads the headers as text, which only visible ASCII is.
-/

namespace WispersAccess
namespace Guest

open Foundation
open Wire (utf8)

/-- Blanks around a cookie, which are not part of it. -/
def isBlank (b : UInt8) : Bool :=
  b = 9 || b = 32

def trimBlanks (bytes : List UInt8) : List UInt8 :=
  ((bytes.dropWhile isBlank).reverse.dropWhile isBlank).reverse

/-- Visible ASCII, blanks included. -/
def isVisible (b : UInt8) : Bool :=
  b = 9 || (32 ≤ b && b < 127)

namespace RequiredCookie

/-- The cookie as a browser sends it. -/
def text (cookie : RequiredCookie) : String :=
  cookie.name ++ "=" ++ cookie.value

/-- The cookie is one of the header's parts, between semicolons and blanks. -/
def IsIn (cookie : RequiredCookie) (header : List UInt8) : Prop :=
  exists part, part ∈ header.splitOn 59 ∧ trimBlanks part = utf8 cookie.text

end RequiredCookie

/-!
## Bytes as characters
-/

/-- The character of a byte, as a header's text has it. -/
def byteChar (b : UInt8) : Char :=
  Char.ofNat b.toNat

theorem byteChar_toNat (b : UInt8) : (byteChar b).toNat = b.toNat := by
  have hvalid : b.toNat.isValidChar := Or.inl (Nat.lt_trans b.toNat_lt (by decide))
  unfold byteChar
  rw [Char.ofNat, dif_pos hvalid]
  rfl

theorem byteChar_injective : Function.Injective byteChar := by
  intro b c h
  apply UInt8.toNat_inj.mp
  rw [← byteChar_toNat, h, byteChar_toNat]

/-- Of the visible characters, blanks are white space. -/
theorem isWhiteSpace_byteChar {b : UInt8} (h : isVisible b = true) :
    isWhiteSpace (byteChar b) = isBlank b := by
  have hall : forall c : Char, c.toNat < 128 -> c.toNat = 9 ∨ 32 ≤ c.toNat ->
      isWhiteSpace c = (c.toNat = 9 || c.toNat = 32) :=
    forall_ascii (by decide)
  unfold isVisible at h
  unfold isBlank
  simp only [Bool.or_eq_true, Bool.and_eq_true, decide_eq_true_eq, ← UInt8.toNat_inj,
    UInt8.le_iff_toNat_le, UInt8.lt_iff_toNat_lt, UInt8.reduceToNat] at h
  rw [hall (byteChar b) (by rw [byteChar_toNat]; omega) (by rw [byteChar_toNat]; omega),
    byteChar_toNat]
  simp only [← UInt8.toNat_inj, UInt8.reduceToNat]

theorem trim_byteChars {bytes : List UInt8} (h : forall b, b ∈ bytes -> isVisible b = true) :
    trim (String.ofList (bytes.map byteChar)) =
      String.ofList ((trimBlanks bytes).map byteChar) := by
  have hfront : bytes.dropWhile (isWhiteSpace ∘ byteChar) = bytes.dropWhile isBlank :=
    dropWhile_congr fun b hb => isWhiteSpace_byteChar (h b hb)
  have hback : (bytes.dropWhile isBlank).reverse.dropWhile (isWhiteSpace ∘ byteChar) =
      (bytes.dropWhile isBlank).reverse.dropWhile isBlank := by
    apply dropWhile_congr
    intro b hb
    rw [List.mem_reverse] at hb
    exact isWhiteSpace_byteChar (h b ((List.dropWhile_sublist isBlank).subset hb))
  unfold trim trimBlanks
  rw [String.toList_ofList, List.dropWhile_map, hfront, ← List.map_reverse, List.dropWhile_map,
    hback, ← List.map_reverse]

/-- Visible bytes are the UTF-8 of their characters. -/
theorem utf8_byteChars {bytes : List UInt8} (h : forall b, b ∈ bytes -> isVisible b = true) :
    utf8 (String.ofList (bytes.map byteChar)) = bytes := by
  have hascii : forall c, c ∈ (String.ofList (bytes.map byteChar)).toList -> c.toNat < 128 := by
    intro c hc
    rw [String.toList_ofList] at hc
    rcases List.mem_map.mp hc with ⟨b, hb, rfl⟩
    have hvisible := h b hb
    unfold isVisible at hvisible
    simp only [Bool.or_eq_true, Bool.and_eq_true, decide_eq_true_eq, ← UInt8.toNat_inj,
      UInt8.le_iff_toNat_le, UInt8.lt_iff_toNat_lt, UInt8.reduceToNat] at hvisible
    rw [byteChar_toNat]
    omega
  rw [utf8_of_ascii hascii, String.toList_ofList, List.map_map]
  have hsame : (fun c : Char => UInt8.ofNat c.toNat) ∘ byteChar = id := by
    funext b
    simp [byteChar_toNat]
  rw [hsame, List.map_id]

theorem byteChars_eq_iff {bytes : List UInt8} (h : forall b, b ∈ bytes -> isVisible b = true)
    {s : String} : bytes.map byteChar = s.toList <-> bytes = utf8 s := by
  constructor
  · intro hs
    have hbytes := utf8_byteChars h
    rw [hs, String.ofList_toList] at hbytes
    exact hbytes.symm
  · intro hs
    have htext : String.ofList (bytes.map byteChar) = s :=
      Wire.utf8_injective ((utf8_byteChars h).trans hs)
    rw [← htext, String.toList_ofList]

/-!
## The search
-/

theorem headerText_eq_some_iff {header : List UInt8} {s : String} :
    headerText header = some s <->
      (forall b, b ∈ header -> isVisible b = true) ∧ s = String.ofList (header.map byteChar) := by
  unfold headerText
  rw [Option.ite_none_right_eq_some, List.all_eq_true, Option.some.injEq, eq_comm (a := s)]
  rfl

theorem mem_trimBlanks {bytes : List UInt8} {b : UInt8} (h : b ∈ trimBlanks bytes) :
    b ∈ bytes := by
  unfold trimBlanks at h
  rw [List.mem_reverse] at h
  have hback := (List.dropWhile_sublist isBlank).subset h
  rw [List.mem_reverse] at hback
  exact (List.dropWhile_sublist isBlank).subset hback

namespace RequiredCookie

variable {cookie : RequiredCookie}

/-- A pair of a header reads as the cookie's name and value, if it is the cookie. -/
theorem split_pair_iff {part : List UInt8} (hvisible : forall b, b ∈ part -> isVisible b = true) :
    splitOnce '=' (trim (String.ofList (part.map byteChar))).toList =
        some (cookie.name.toList, cookie.value.toList) <->
      '=' ∉ cookie.name.toList ∧ trimBlanks part = utf8 cookie.text := by
  have htrimmed : forall b, b ∈ trimBlanks part -> isVisible b = true :=
    fun b hb => hvisible b (mem_trimBlanks hb)
  have htext : cookie.text.toList = cookie.name.toList ++ '=' :: cookie.value.toList := by
    unfold text
    simp
  rw [trim_byteChars hvisible, String.toList_ofList, ← byteChars_eq_iff htrimmed, htext]
  constructor
  · intro hsplit
    rcases splitOnce_some hsplit with ⟨hpair, hname⟩
    exact ⟨hname, hpair⟩
  · intro h
    rcases h with ⟨hname, hpair⟩
    rw [hpair]
    exact splitOnce_append hname _

theorem isPresentedIn_iff {headers : List (List UInt8)} :
    cookie.isPresentedIn headers = true <->
      '=' ∉ cookie.name.toList ∧ exists header, header ∈ headers ∧
        (forall b, b ∈ header -> isVisible b = true) ∧ cookie.IsIn header := by
  have hsemicolon : ';' = byteChar 59 := by decide
  unfold isPresentedIn IsIn
  simp only [List.any_eq_true, List.mem_filterMap, List.mem_flatMap, headerText_eq_some_iff,
    Bool.and_eq_true, decide_eq_true_eq]
  constructor
  · intro h
    rcases h with ⟨⟨name, value⟩, ⟨pair, ⟨s, ⟨header, hheader, hvisible, rfl⟩, hpair⟩, hsplit⟩,
      hname, hvalue⟩
    rw [String.toList_ofList, hsemicolon, splitOn_map byteChar_injective] at hpair
    rcases List.mem_map.mp hpair with ⟨part, hpart, rfl⟩
    cases hname
    cases hvalue
    have hpartVisible : forall b, b ∈ part -> isVisible b = true :=
      fun b hb => hvisible b (mem_of_mem_splitOn hpart hb)
    rcases (split_pair_iff hpartVisible).mp hsplit with ⟨hequals, htrimmed⟩
    exact ⟨hequals, header, hheader, hvisible, part, hpart, htrimmed⟩
  · intro h
    rcases h with ⟨hequals, header, hheader, hvisible, part, hpart, htrimmed⟩
    refine ⟨(cookie.name.toList, cookie.value.toList), ⟨part.map byteChar, ⟨_, ⟨header, hheader,
      hvisible, rfl⟩, ?_⟩, ?_⟩, rfl, rfl⟩
    · rw [String.toList_ofList, hsemicolon, splitOn_map byteChar_injective]
      exact List.mem_map.mpr ⟨part, hpart, rfl⟩
    · have hpartVisible : forall b, b ∈ part -> isVisible b = true :=
        fun b hb => hvisible b (mem_of_mem_splitOn hpart hb)
      exact (split_pair_iff hpartVisible).mpr ⟨hequals, htrimmed⟩

/-- The search finds nothing that is not there.  It finds the cookie in a request that carries
it if, and only if, one of the headers it is in is all visible ASCII, and an equals sign ends
its name. -/
theorem presented_iff_carried (cookie : RequiredCookie) (headers : List (List UInt8)) :
    (((exists header, header ∈ headers ∧ cookie.IsIn header) ->
        cookie.isPresentedIn headers = true) ∧
      (cookie.isPresentedIn headers = true ->
        exists header, header ∈ headers ∧ cookie.IsIn header)) <->
    ((exists header, header ∈ headers ∧ cookie.IsIn header) ->
      '=' ∉ cookie.name.toList ∧ exists header, header ∈ headers ∧ cookie.IsIn header ∧
        forall b, b ∈ header -> isVisible b = true) := by
  have hsound : cookie.isPresentedIn headers = true ->
      exists header, header ∈ headers ∧ cookie.IsIn header := by
    intro hpresented
    rcases isPresentedIn_iff.mp hpresented with ⟨_, header, hheader, _, hin⟩
    exact ⟨header, hheader, hin⟩
  constructor
  · intro h hcarried
    rcases h with ⟨hfound, _⟩
    rcases isPresentedIn_iff.mp (hfound hcarried) with ⟨hequals, header, hheader, hvisible, hin⟩
    exact ⟨hequals, header, hheader, hin, hvisible⟩
  · intro hplain
    refine ⟨?_, hsound⟩
    intro hcarried
    rcases hplain hcarried with ⟨hequals, header, hheader, hin, hvisible⟩
    exact isPresentedIn_iff.mpr ⟨hequals, header, hheader, hvisible, hin⟩

end RequiredCookie

/-- A cookie of an app, with a letter outside ASCII in it, before the pairing cookie. -/
def mixedHeader : List UInt8 :=
  utf8 ("lang=français; " ++ someIssuer.requiredCookie.text)

/-- The browser is paired, and is not admitted. -/
theorem paired_browser_turned_away :
    someIssuer.requiredCookie.IsIn mixedHeader ∧
      someIssuer.requiredCookie.isPresentedIn [mixedHeader] = false :=
  ⟨⟨32 :: utf8 someIssuer.requiredCookie.text, by decide +kernel, by decide +kernel⟩,
    by decide +kernel⟩

end Guest
end WispersAccess
