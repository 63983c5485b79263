import Mathlib.Algebra.Group.Nat.Defs
import WispersAccess.Foundation.Json
import WispersAccess.Foundation.Texts
import WispersAccess.Wire.Message

/-!
# The documents of the guest API

How share info and its apps are written as JSON and read back.  Fields with a
default may be missing, fields of another version are ignored, and a kind or a
mode this build does not know is read as a default of its own.
-/

namespace WispersAccess
namespace Wire

open Foundation

/-!
## Enumerations and hashes
-/

def AppKind.parseOrWeb (s : String) : AppKind :=
  if s = "jellyfin" then jellyfin
  else if s = "immich" then immich
  else web

/-- The kind on its own, which a typo does not name. -/
def AppKind.parse (s : String) : Option AppKind :=
  if s = "web" then some web
  else if s = "jellyfin" then some jellyfin
  else if s = "immich" then some immich
  else none

def AppProxyMode.parse (s : String) : AppProxyMode :=
  if s = "reverse-proxy" then reverseProxy
  else if s = "forward-proxy" then forwardProxy
  else unknown

@[simp] theorem AppKind.parseOrWeb_asStr (kind : AppKind) :
    AppKind.parseOrWeb kind.asStr = kind := by
  cases kind <;> rfl

@[simp] theorem AppKind.parse_asStr (kind : AppKind) : AppKind.parse kind.asStr = some kind := by
  cases kind <;> rfl

@[simp] theorem AppProxyMode.parse_asStr (mode : AppProxyMode) :
    AppProxyMode.parse mode.asStr = mode := by
  cases mode <;> rfl

theorem AppKind.asStr_injective {kind kind' : AppKind} (h : kind.asStr = kind'.asStr) :
    kind = kind' := by
  rw [← AppKind.parseOrWeb_asStr kind, h, AppKind.parseOrWeb_asStr]

theorem AppProxyMode.asStr_injective {mode mode' : AppProxyMode} (h : mode.asStr = mode'.asStr) :
    mode = mode' := by
  rw [← AppProxyMode.parse_asStr mode, h, AppProxyMode.parse_asStr]

/-- `u64::from_str_radix(s, 16)`: a sign is taken, an empty text and an overflow are not. -/
def parseHash (s : String) : Option UInt64 :=
  if stripSign s.toList = [] then none
  else
    match hexValue (stripSign s.toList) with
    | none => none
    | some n => if n < 2 ^ 64 then some (UInt64.ofNat n) else none

theorem hexValue_hashText (hash : UInt64) :
    hexValue (hashText hash).toList = some hash.toNat := by
  unfold hashText
  rw [String.toList_ofList, hexValue_replicate_append, hexValue_toDigits]

@[simp] theorem parseHash_hashText (hash : UInt64) : parseHash (hashText hash) = some hash := by
  have hnonempty : (hashText hash).toList ≠ [] := by
    unfold hashText
    rw [String.toList_ofList]
    exact List.append_ne_nil_of_right_ne_nil _ Nat.toDigits_ne_nil
  unfold parseHash
  rw [stripSign_of_hexValue (hexValue_hashText hash), if_neg hnonempty, hexValue_hashText]
  show (if hash.toNat < 2 ^ 64 then some (UInt64.ofNat hash.toNat) else none) = some hash
  rw [if_pos hash.toNat_lt, UInt64.ofNat_toNat]

/-!
## Entity tags
-/

theorem hashText_injective {hash known : UInt64} (h : hashText hash = hashText known) :
    hash = known := by
  have hparse := parseHash_hashText hash
  rw [h, parseHash_hashText] at hparse
  exact (Option.some.inj hparse).symm

theorem etag_injective {hash known : UInt64} (h : etag hash = etag known) : hash = known := by
  refine hashText_injective (String.toList_inj.mp ?_)
  have hlists := congrArg String.toList h
  simpa [etag] using hlists

theorem toList_etag (hash : UInt64) :
    (etag hash).toList = '"' :: ((hashText hash).toList ++ ['"']) := by
  simp [etag]

/-- A tag is a single entry of a header. -/
theorem splitCommas_etag (hash : UInt64) :
    splitCommas (etag hash).toList = [(etag hash).toList] := by
  refine List.splitOn_eq_singleton ?_
  rw [toList_etag]
  intro hcomma
  rcases List.mem_cons.mp hcomma with hquote | htail
  · exact absurd hquote (by decide)
  · rcases List.mem_append.mp htail with hdigit | hquote
    · have hsome := isSome_hexDigit_of_mem (hexValue_hashText hash) hdigit
      exact absurd hsome (by decide)
    · exact absurd (List.mem_singleton.mp hquote) (by decide)

/-- A tag has no spaces around it. -/
theorem trimSpaces_etag (hash : UInt64) : trimSpaces (etag hash).toList = (etag hash).toList := by
  have hquote : Char.isWhitespace '"' = false := by decide
  unfold trimSpaces
  rw [toList_etag, List.dropWhile_cons_of_neg (by simp [hquote]), ← List.cons_append,
    List.reverse_append, List.reverse_singleton, List.singleton_append,
    List.dropWhile_cons_of_neg (by simp [hquote]), List.reverse_cons, List.reverse_reverse]

/-- The tag of a known hash names that hash and no other. -/
theorem matchesIfNoneMatch_etag_iff {hash known : UInt64} :
    matchesIfNoneMatch hash (etag known) = true <-> hash = known := by
  have hstar : etag known ≠ "*" := by
    intro heq
    have hlists := congrArg String.toList heq
    rw [toList_etag] at hlists
    exact absurd (List.cons.inj hlists).left (by decide)
  have hweak : etag known ≠ "W/" ++ etag hash := by
    intro heq
    have hlists := congrArg String.toList heq
    rw [toList_etag, String.toList_append] at hlists
    exact absurd (List.cons.inj hlists).left (by decide)
  have hentry : matchesIfNoneMatch hash (etag known) = true <->
      etag known = "*" ∨ etag known = etag hash ∨ etag known = "W/" ++ etag hash := by
    unfold matchesIfNoneMatch
    rw [splitCommas_etag]
    simp only [List.any_cons, List.any_nil, Bool.or_false, Bool.or_eq_true, beq_iff_eq,
      trimSpaces_etag, String.ofList_toList]
    exact or_assoc
  rw [hentry]
  constructor
  · intro h
    rcases h with heq | heq | heq
    · exact absurd heq hstar
    · exact (etag_injective heq).symm
    · exact absurd heq hweak
  · intro hsame
    subst hsame
    exact Or.inr (Or.inl rfl)

/-!
## Share info
-/

def SharedApp.toJson (app : SharedApp) : Json :=
  Json.obj ([("id", Json.str app.id), ("name", Json.str app.name),
      ("kind", Json.str app.kind.asStr), ("mode", Json.str app.mode.asStr)] ++
    (match app.startUrl with
      | none => []
      | some url => [("start_url", Json.str url)]) ++
    (if app.proxiedOrigins = [] then []
      else [("proxied_origins", Json.ofTexts app.proxiedOrigins)]))

def SharedApp.ofJson (j : Json) : Option SharedApp := do
  let fields <- j.readFields
  let id <- Json.required Json.readText "id" fields
  let name <- Json.required Json.readText "name" fields
  let kind <- Json.defaulted AppKind.web
    (fun v => v.readText.map AppKind.parseOrWeb) "kind" fields
  let mode <- Json.defaulted AppProxyMode.reverseProxy
    (fun v => v.readText.map AppProxyMode.parse) "mode" fields
  let startUrl <- Json.defaulted none (Json.readOptional Json.readText) "start_url" fields
  let proxiedOrigins <- Json.defaulted [] (Json.readArray Json.readText) "proxied_origins" fields
  return { id, name, kind, mode, startUrl, proxiedOrigins }

def ShareInfo.toJson (info : ShareInfo) : Json :=
  Json.obj ([("config_hash", Json.str (hashText info.configHash)), ("name", Json.str info.name),
      ("transport", Json.str info.transport),
      ("apps", Json.arr (info.apps.map SharedApp.toJson))] ++
    (if info.caCertificates = [] then []
      else [("ca_certificates", Json.ofTexts info.caCertificates)]))

def ShareInfo.ofJson (j : Json) : Option ShareInfo := do
  let fields <- j.readFields
  let configHash <- Json.required (fun v => v.readText.bind parseHash) "config_hash" fields
  let name <- Json.required Json.readText "name" fields
  let transport <- Json.required Json.readText "transport" fields
  let apps <- Json.required (Json.readArray SharedApp.ofJson) "apps" fields
  let caCertificates <-
    Json.defaulted [] (Json.readArray Json.readText) "ca_certificates" fields
  return { configHash, name, transport, apps, caCertificates }

@[simp] theorem SharedApp.ofJson_toJson (app : SharedApp) :
    SharedApp.ofJson app.toJson = some app := by
  rcases app with ⟨id, name, kind, mode, startUrl, proxiedOrigins⟩
  -- which optional fields are written
  cases startUrl <;> by_cases horigins : proxiedOrigins = []
  all_goals
    simp [toJson, ofJson, Json.readFields, Json.required, Json.defaulted, Json.field,
      Json.readText, Json.readOptional, horigins]

/-- What is written for a share reads back as the share. -/
@[simp] theorem ShareInfo.ofJson_toJson (info : ShareInfo) :
    ShareInfo.ofJson info.toJson = some info := by
  rcases info with ⟨configHash, name, transport, apps, caCertificates⟩
  have happs : Json.readArray SharedApp.ofJson (Json.arr (apps.map SharedApp.toJson)) = some apps :=
    Json.readArray_map SharedApp.ofJson_toJson apps
  by_cases hcertificates : caCertificates = []
  all_goals
    simp [toJson, ofJson, Json.readFields, Json.required, Json.defaulted, Json.field,
      Json.readText, happs, hcertificates]

/-!
## Bodies
-/

/-- The text of a body that is UTF-8. -/
def ofUtf8 (bytes : List UInt8) : Option String :=
  String.fromUTF8? ⟨bytes.toArray⟩

@[simp] theorem ofUtf8_utf8 (s : String) : ofUtf8 (utf8 s) = some s := by
  unfold ofUtf8 utf8 String.fromUTF8?
  simp only [String.toUTF8_eq_toByteArray, Array.toArray_toList, s.isValidUTF8, dite_true]
  rfl

/-- Only the bytes of a text are read as it. -/
theorem ofUtf8_eq_some_iff {bytes : List UInt8} {s : String} :
    ofUtf8 bytes = some s <-> bytes = utf8 s := by
  constructor
  · intro h
    unfold ofUtf8 String.fromUTF8? at h
    split at h
    · cases h
      simp [utf8, String.fromUTF8]
    · cases h
  · intro h
    rw [h, ofUtf8_utf8]

theorem utf8_eq_flatMap (s : String) : utf8 s = s.toList.flatMap String.utf8EncodeChar := by
  have hcoded : forall cs, utf8 (String.ofList cs) = cs.flatMap String.utf8EncodeChar := by
    intro cs
    simp [utf8, List.utf8Encode]
  rw [← hcoded, String.ofList_toList]

theorem utf8_append (s t : String) : utf8 (s ++ t) = utf8 s ++ utf8 t := by
  rw [utf8_eq_flatMap, utf8_eq_flatMap, utf8_eq_flatMap, String.toList_append,
    List.flatMap_append]

/-- An ASCII byte of a text is one of its characters. -/
theorem mem_toList_of_mem_utf8 {s : String} {b : UInt8} (h : b ∈ utf8 s) (hb : b < 128) :
    Char.ofNat b.toNat ∈ s.toList := by
  rw [utf8_eq_flatMap] at h
  rcases List.mem_flatMap.mp h with ⟨c, hc, hbyte⟩
  have hsmall : b.toNat < 128 := UInt8.lt_iff_toNat_lt.mp hb
  have hhigh : forall n, b = UInt8.ofNat n -> n < 256 -> ¬ 128 ≤ n := by
    intro n hn hbyte hlarge
    rw [hn, UInt8.toNat_ofNat', Nat.mod_eq_of_lt hbyte] at hsmall
    omega
  have hsame : c.val.toNat = b.toNat := by
    unfold String.utf8EncodeChar at hbyte
    simp only at hbyte
    split at hbyte
    · rename_i hascii
      have hbound : c.val.toNat < 2 ^ 8 := by omega
      rw [List.mem_singleton.mp hbyte, UInt8.toNat_ofNat', Nat.mod_eq_of_lt hbound]
    -- every byte of a longer code is at least 128
    · exfalso
      repeat' split at hbyte
      all_goals
        simp only [List.mem_cons, List.not_mem_nil, or_false] at hbyte
      · rcases hbyte with h | h <;> exact hhigh _ h (by omega) (by omega)
      · rcases hbyte with h | h | h <;> exact hhigh _ h (by omega) (by omega)
      · rcases hbyte with h | h | h | h <;> exact hhigh _ h (by omega) (by omega)
  have hback : Char.ofNat b.toNat = c := by
    rw [← hsame]
    exact Char.ofNat_toNat c
  rw [hback]
  exact hc

theorem utf8_injective {s t : String} (h : utf8 s = utf8 t) : s = t := by
  have hs := ofUtf8_utf8 s
  rw [h, ofUtf8_utf8] at hs
  exact (Option.some.inj hs).symm

/-- `serde_json::to_vec` of a document. -/
def encodeJson (text : JsonText) (j : Json) : List UInt8 :=
  utf8 (text.print j)

/-- `serde_json::from_slice` of a document. -/
def decodeJson {M : Type} (text : JsonText) (read : Json -> Option M) (bytes : List UInt8) :
    Option M :=
  ((ofUtf8 bytes).bind text.parse).bind read

@[simp] theorem decodeJson_encodeJson {M : Type} {read : Json -> Option M} {j : Json} {m : M}
    (h : read j = some m) (text : JsonText) :
    decodeJson text read (encodeJson text j) = some m := by
  unfold decodeJson encodeJson
  rw [ofUtf8_utf8, Option.bind_some, text.parse_print, Option.bind_some, h]

/-- `serde_json::to_vec` of a share. -/
def ShareInfo.encode (text : JsonText) (info : ShareInfo) : List UInt8 :=
  utf8 (text.print info.toJson)

/-- `serde_json::from_slice` of a share. -/
def ShareInfo.decode (text : JsonText) (body : List UInt8) : Option ShareInfo :=
  ((ofUtf8 body).bind text.parse).bind ShareInfo.ofJson

@[simp] theorem ShareInfo.decode_encode (text : JsonText) (info : ShareInfo) :
    ShareInfo.decode text (info.encode text) = some info := by
  unfold decode encode
  rw [ofUtf8_utf8, Option.bind_some, text.parse_print, Option.bind_some, ofJson_toJson]

end Wire
end WispersAccess
