import Mathlib.Data.List.Basic

/-!
# JSON documents

Documents as trees.  The fields of an object keep the order they are written in,
and a reader that looks one up ignores those it does not know.
-/

namespace WispersAccess
namespace Foundation

inductive Json where
  | null
  | bool (b : Bool)
  | num (n : Int)
  | str (s : String)
  | arr (items : List Json)
  | obj (fields : List (String × Json))

/-- A way to write documents down that reads back what it wrote. -/
structure JsonText where
  print : Json -> String
  parse : String -> Option Json
  parse_print : forall j, parse (print j) = some j

namespace Json

/-- What an object has under a name. -/
inductive Field where
  | missing
  | found (value : Json)
  | duplicate

def field (name : String) (fields : List (String × Json)) : Field :=
  match fields.filter fun f => f.1 = name with
  | [] => Field.missing
  | [f] => Field.found f.2
  | _ => Field.duplicate

/-- A field that has to be there. -/
def required {α : Type _} (read : Json -> Option α) (name : String)
    (fields : List (String × Json)) : Option α :=
  match field name fields with
  | Field.found value => read value
  | _ => none

/-- A field with a default. -/
def defaulted {α : Type _} (default : α) (read : Json -> Option α) (name : String)
    (fields : List (String × Json)) : Option α :=
  match field name fields with
  | Field.missing => some default
  | Field.found value => read value
  | Field.duplicate => none

/-!
## Objects that gain and lose a field
-/

section
variable {name other : String} {value : Json} {front back : List (String × Json)}

theorem field_insert_of_ne (hother : other ≠ name) :
    field name (front ++ (other, value) :: back) = field name (front ++ back) := by
  unfold field
  rw [List.filter_append, List.filter_append, List.filter_cons_of_neg (by simpa using hother)]

theorem field_eq_missing_iff {fields : List (String × Json)} :
    field name fields = Field.missing <-> fields.filter (fun f => f.1 = name) = [] := by
  unfold field
  cases hfilter : fields.filter (fun f => f.1 = name) with
  | nil => simp
  | cons f rest => cases rest <;> simp

theorem field_insert_of_missing (h : field name (front ++ back) = Field.missing) :
    field name (front ++ (name, value) :: back) = Field.found value := by
  rw [field_eq_missing_iff, List.filter_append] at h
  rcases List.append_eq_nil_iff.mp h with ⟨hfront, hback⟩
  unfold field
  rw [List.filter_append, List.filter_cons_of_pos (by simp), hfront, hback]
  rfl

/-- A field that is there once is missing without that place. -/
theorem missing_of_field_insert
    (h : field name (front ++ (name, value) :: back) ≠ Field.duplicate) :
    field name (front ++ back) = Field.missing := by
  rw [field_eq_missing_iff, List.filter_append, List.append_eq_nil_iff]
  unfold field at h
  rw [List.filter_append, List.filter_cons_of_pos (by simp)] at h
  cases hfront : front.filter (fun f => f.1 = name) with
  | nil =>
      cases hback : back.filter (fun f => f.1 = name) with
      | nil => exact ⟨rfl, rfl⟩
      | cons f rest =>
          rw [hfront, hback] at h
          exact absurd rfl h
  | cons f rest =>
      rw [hfront] at h
      cases rest <;> exact absurd rfl h

variable {α : Type _} {default x : α} {read : Json -> Option α}

theorem required_insert_of_ne (hother : other ≠ name) :
    required read name (front ++ (other, value) :: back) =
      required read name (front ++ back) := by
  unfold required
  rw [field_insert_of_ne hother]

theorem defaulted_insert_of_ne (hother : other ≠ name) :
    defaulted default read name (front ++ (other, value) :: back) =
      defaulted default read name (front ++ back) := by
  unfold defaulted
  rw [field_insert_of_ne hother]

theorem missing_of_required
    (h : required read name (front ++ (name, value) :: back) = some x) :
    field name (front ++ back) = Field.missing := by
  apply missing_of_field_insert
  intro hduplicate
  unfold required at h
  rw [hduplicate] at h
  cases h

theorem missing_of_defaulted
    (h : defaulted default read name (front ++ (name, value) :: back) = some x) :
    field name (front ++ back) = Field.missing := by
  apply missing_of_field_insert
  intro hduplicate
  unfold defaulted at h
  rw [hduplicate] at h
  cases h

theorem required_found (h : field name (front ++ back) = Field.missing) :
    required read name (front ++ (name, value) :: back) = read value := by
  unfold required
  rw [field_insert_of_missing h]

theorem defaulted_found (h : field name (front ++ back) = Field.missing) :
    defaulted default read name (front ++ (name, value) :: back) = read value := by
  unfold defaulted
  rw [field_insert_of_missing h]

theorem defaulted_missing (h : field name (front ++ back) = Field.missing) :
    defaulted default read name (front ++ back) = some default := by
  unfold defaulted
  rw [h]

end

/-!
## Readers
-/

def readFields : Json -> Option (List (String × Json))
  | obj fields => some fields
  | _ => none

def readText : Json -> Option String
  | str s => some s
  | _ => none

/-- The items of an array, all of which have to be readable. -/
def readArray {α : Type _} (read : Json -> Option α) : Json -> Option (List α)
  | arr items => items.mapM read
  | _ => none

/-- Nothing and null are both read as absent. -/
def readOptional {α : Type _} (read : Json -> Option α) : Json -> Option (Option α)
  | null => some none
  | j => (read j).map some

def ofTexts (texts : List String) : Json :=
  arr (texts.map str)

theorem mapM_map_some {α β : Type _} {read : β -> Option α} {write : α -> β}
    (h : forall x, read (write x) = some x) (xs : List α) :
    (xs.map write).mapM read = some xs := by
  induction xs with
  | nil => rfl
  | cons x rest ih =>
      rw [List.map_cons, List.mapM_cons, h x, ih]
      rfl

theorem mapM_cons_eq_some_iff {α β : Type _} {read : β -> Option α} {doc : β} {docs : List β}
    {xs : List α} {x : α} :
    (doc :: docs).mapM read = some (x :: xs) <-> read doc = some x ∧ docs.mapM read = some xs := by
  rw [List.mapM_cons]
  simp [Option.bind_eq_some_iff]

/-- An item in the middle is read on its own. -/
theorem mapM_append_cons_eq_some_iff {α β : Type _} {read : β -> Option α} {docs docs' : List β}
    {doc : β} {xs ys : List α} {x : α} (hlength : docs.length = xs.length) :
    (docs ++ doc :: docs').mapM read = some (xs ++ x :: ys) <->
      docs.mapM read = some xs ∧ read doc = some x ∧ docs'.mapM read = some ys := by
  induction docs generalizing xs with
  | nil =>
      have hxs : xs = [] := List.eq_nil_of_length_eq_zero hlength.symm
      rw [hxs, List.nil_append, List.nil_append, mapM_cons_eq_some_iff]
      simp
  | cons d docs ih =>
      cases xs with
      | nil => cases hlength
      | cons z xs =>
          rw [List.cons_append, List.cons_append, mapM_cons_eq_some_iff, mapM_cons_eq_some_iff,
            ih (Nat.succ.inj hlength), and_assoc]

/-- An array reads back if its items do. -/
theorem readArray_map {α : Type _} {read : Json -> Option α} {write : α -> Json}
    (h : forall x, read (write x) = some x) (xs : List α) :
    readArray read (arr (xs.map write)) = some xs :=
  mapM_map_some h xs

@[simp] theorem readArray_ofTexts (texts : List String) :
    readArray readText (ofTexts texts) = some texts :=
  @readArray_map String readText str (fun _ => rfl) texts

end Json

/-- A list of texts, printed as a JSON array. -/
def JsonText.printTexts (text : JsonText) (texts : List String) : String :=
  text.print (Json.ofTexts texts)

def JsonText.parseTexts (text : JsonText) (s : String) : Option (List String) :=
  (text.parse s).bind (Json.readArray Json.readText)

@[simp] theorem JsonText.parseTexts_printTexts (text : JsonText) (texts : List String) :
    text.parseTexts (text.printTexts texts) = some texts := by
  unfold parseTexts printTexts
  rw [text.parse_print]
  exact Json.readArray_ofTexts texts

end Foundation
end WispersAccess
