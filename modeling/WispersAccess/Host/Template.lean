import WispersAccess.Host.ConfigFile
import WispersAccess.Foundation.CompactJson

/-!
# The config file that `init` writes

The file names the share and is otherwise comments.  It is read when the share is
served.
-/

namespace WispersAccess
namespace Host

open Foundation
open Wire (UrlParser)

/-- Lines of a file, each with its end. -/
def fileLines (lines : List String) : String :=
  String.ofList (terminated '\n' (lines.map String.toList))

def templateHead : List String := [
  "# This share's config. Edit freely and apply with `waserver reload`.",
  "# Reference: one [[app]] block per shared app.",
  ""]

def templateTail : List String := [
  "",
  "# One [[app]] block per app. Keep `id` stable, guest nodes refer to it.",
  "# `upstream` is host:port, or :port for localhost.",
  "#",
  "# [[app]]",
  "# id = \"myapp\"",
  "# name = \"My App\"",
  "# upstream = \":3000\"",
  "#",
  "# An app made of several origins (single sign-on, an API on its own host,",
  "# a dev setup) can use forward-proxy mode instead: guest nodes browse it at its",
  "# real URL, and requests to the listed origins go through the share.",
  "# Origins on localhost take http, all others https.",
  "#",
  "# [[app]]",
  "# id = \"dev\"",
  "# mode = \"forward-proxy\"",
  "# start_url = \"http://localhost:4200/\"",
  "# proxied_origins = [\"http://localhost:4200\", \"http://localhost:1337\"]"]

/-- The `share.toml` written by `init`; `quote` prints a TOML string. -/
def renderTemplate (quote : String -> String) (name : String) : String :=
  fileLines templateHead ++ ("name = " ++ quote name ++ "\n") ++ fileLines templateTail

/-!
## Reading it
-/

/-- A line that TOML skips: empty, or a comment without control characters. -/
def isRemark (line : String) : Bool :=
  match line.toList with
  | [] => true
  | '#' :: cs => cs.all fun c => c = '\t' || (32 ≤ c.toNat && c.toNat ≠ 127)
  | _ => false

/-- A key that TOML takes without quotes. -/
def isBareKey (key : String) : Bool :=
  key ≠ "" && key.toList.all isIdChar

/-- The reader takes a printed text for the text, whatever remarks stand around it. -/
def ReadsPrinted (toml : String -> Option Json) (quote : String -> String) : Prop :=
  forall front back key text, front.all isRemark = true -> back.all isRemark = true ->
    isBareKey key = true ->
    toml (fileLines front ++ (key ++ " = " ++ quote text ++ "\n") ++ fileLines back) =
      some (Json.obj [(key, Json.str text)])

/-- The config of a share without apps. -/
def ShareConfig.named (name : String) : ShareConfig where
  name := name
  apps := []
  caCertificates := []

theorem isRemark_comment (cs : List Char) : isRemark (String.ofList ('#' :: cs)) =
    cs.all fun c => c = '\t' || (32 ≤ c.toNat && c.toNat ≠ 127) := by
  unfold isRemark
  rw [String.toList_ofList]
  rfl

theorem isRemark_template : (templateHead ++ templateTail).all isRemark = true := by
  unfold templateHead templateTail
  simp only [List.cons_append, List.nil_append, List.all_cons, List.all_nil]
  repeat rw [isRemark_comment]
  decide +kernel

section
variable {crates : ConfigCrates} {quote : String -> String}

/-- A rendered file has the name in it, and the defaults of the rest. -/
theorem ofJson_named (name : String) : ShareFile.ofJson (Json.obj [("name", Json.str name)]) =
    some { name, apps := [], caCertificates := [] } :=
  rfl

/-- Any name that is not blank is read back; a blank one is refused. -/
theorem parse_renderTemplate (htoml : ReadsPrinted crates.toml quote) (urls : UrlParser)
    (name : String) : ShareConfig.parse crates urls (renderTemplate quote name) =
      if trim name = "" then Except.error ConfigError.emptyName
      else Except.ok (ShareConfig.named name) := by
  have hremarks := isRemark_template
  rw [List.all_append, Bool.and_eq_true] at hremarks
  have hread : crates.toml (renderTemplate quote name) =
      some (Json.obj [("name", Json.str name)]) :=
    htoml templateHead templateTail "name" name hremarks.left hremarks.right (by decide)
  unfold ShareConfig.parse
  rw [hread, Option.bind_some, ofJson_named]
  rfl

end

/-!
## A reader of plain files
-/

/-- Reads files of remarks and one text, which is printed as JSON prints it. -/
def plainToml (s : String) : Option Json :=
  match ((s.toList.splitOn '\n').map String.ofList).filter fun line => !isRemark line with
  | [line] =>
      match splitOnce '=' line.toList with
      | some (key, value) =>
          match Json.compact.parse (String.ofList value.tail) with
          | some (Json.str text) => some (Json.obj [(String.ofList key.dropLast, Json.str text)])
          | _ => none
      | none => none
  | _ => none

def plainQuote (s : String) : String :=
  Json.compact.print (Json.str s)

theorem newline_not_mem_remark {line : String} (h : isRemark line = true) :
    '\n' ∉ line.toList := by
  intro hmem
  unfold isRemark at h
  split at h
  · rename_i hempty
    rw [hempty] at hmem
    cases hmem
  · rename_i cs hcomment
    rw [hcomment] at hmem
    rcases List.mem_cons.mp hmem with hhash | hmem
    · cases hhash
    · exact absurd (List.all_eq_true.mp h _ hmem) (by decide)
  · cases h

theorem newline_not_mem_remarks {lines : List String} (h : lines.all isRemark = true) :
    forall line, line ∈ lines.map String.toList -> '\n' ∉ line := by
  intro line hline
  rcases List.mem_map.mp hline with ⟨remark, hremark, rfl⟩
  exact newline_not_mem_remark (List.all_eq_true.mp h remark hremark)

theorem filter_remarks {lines : List String} (h : lines.all isRemark = true) :
    lines.filter (fun line => !isRemark line) = [] := by
  rw [List.filter_eq_nil_iff]
  intro line hline
  simp [List.all_eq_true.mp h line hline]

theorem not_mem_key {key : String} (hkey : isBareKey key = true) {c : Char}
    (hc : isIdChar c = false) : c ∉ key.toList := by
  intro hmem
  rw [List.all_eq_true.mp (Bool.and_eq_true_iff.mp hkey).right c hmem] at hc
  cases hc

/-- A line that says what the key is. -/
def keyLine (key text : String) : String :=
  key ++ " = " ++ plainQuote text

theorem toList_keyLine (key text : String) : (keyLine key text).toList =
    (key.toList ++ [' ']) ++ '=' :: ' ' :: (plainQuote text).toList := by
  unfold keyLine
  rw [String.toList_append, String.toList_append, List.append_assoc]
  show key.toList ++ ([' '] ++ '=' :: ' ' :: (plainQuote text).toList) = _
  rw [List.append_assoc]

theorem newline_not_mem_keyLine {key : String} (hkey : isBareKey key = true) (text : String) :
    '\n' ∉ (keyLine key text).toList := by
  have hprinted : '\n' ∉ (plainQuote text).toList := Json.newline_not_mem_print _
  have hnotKey : '\n' ∉ key.toList := not_mem_key hkey (by decide)
  rw [toList_keyLine]
  simp [hnotKey, hprinted]

/-- A line with a key is neither empty nor a comment. -/
theorem isRemark_keyLine {key : String} (hkey : isBareKey key = true) (text : String) :
    isRemark (keyLine key text) = false := by
  unfold isRemark
  rw [toList_keyLine]
  cases hcs : key.toList with
  | nil =>
      rw [String.toList_eq_nil_iff.mp hcs] at hkey
      cases hkey
  | cons c cs =>
      have hhash : c ≠ '#' := by
        intro hc
        have hnotKey : '#' ∉ key.toList := not_mem_key hkey (by decide)
        rw [hcs, hc] at hnotKey
        exact hnotKey List.mem_cons_self
      split
      · rename_i heq
        cases heq
      · rename_i heq
        exact absurd (List.cons.inj heq).left hhash
      · rfl

/-- The lines of a file, up to the empty one behind the last. -/
theorem lines_of_file {front back : List String} {line : String}
    (hfront : forall l, l ∈ front.map String.toList -> '\n' ∉ l) (hline : '\n' ∉ line.toList)
    (hback : forall l, l ∈ back.map String.toList -> '\n' ∉ l) :
    ((fileLines front ++ (line ++ "\n") ++ fileLines back).toList.splitOn '\n').map
      String.ofList = front ++ line :: (back ++ [""]) := by
  have hfile : (fileLines front ++ (line ++ "\n") ++ fileLines back).toList =
      terminated '\n' (front.map String.toList ++ line.toList :: back.map String.toList) ++ [] := by
    have hhead : (fileLines front).toList = terminated '\n' (front.map String.toList) :=
      String.toList_ofList
    have htail : (fileLines back).toList = terminated '\n' (back.map String.toList) :=
      String.toList_ofList
    rw [String.toList_append, String.toList_append, String.toList_append, hhead, htail]
    simp [terminated]
  have hall : forall l, l ∈ front.map String.toList ++ line.toList :: back.map String.toList ->
      '\n' ∉ l := by
    intro l hl
    rcases List.mem_append.mp hl with hl | hl
    · exact hfront l hl
    · rcases List.mem_cons.mp hl with hl | hl
      · rw [hl]
        exact hline
      · exact hback l hl
  rw [hfile, splitOn_terminated hall]
  simp

theorem readsPrinted_plain : ReadsPrinted plainToml plainQuote := by
  intro front back key text hfront hback hkey
  have hlines := lines_of_file (newline_not_mem_remarks hfront)
    (newline_not_mem_keyLine hkey text) (newline_not_mem_remarks hback)
  have hfilter : (front ++ keyLine key text :: (back ++ [""])).filter
      (fun line => !isRemark line) = [keyLine key text] := by
    rw [List.filter_append, filter_remarks hfront,
      List.filter_cons_of_pos (by simp [isRemark_keyLine hkey]), List.filter_append,
      filter_remarks hback]
    rfl
  have hequals : '=' ∉ key.toList ++ [' '] := by
    have hnotKey : '=' ∉ key.toList := not_mem_key hkey (by decide)
    simp [hnotKey]
  show plainToml (fileLines front ++ (keyLine key text ++ "\n") ++ fileLines back) = _
  unfold plainToml
  rw [hlines, hfilter]
  simp only [toList_keyLine, splitOnce_append hequals, List.tail_cons, String.ofList_toList,
    List.dropLast_concat]
  rw [plainQuote, Json.compact.parse_print]

end Host
end WispersAccess
