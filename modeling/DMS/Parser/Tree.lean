import DMS.Core.GoMap
import DMS.Core.GoText

/-! # Document trees and paths

What the reader of YAML puts into a `map[string]any`, and `tree/path.go` of `dms/jobs/parser`: rules
are attached to patterns, and a pattern is compared with the dotted path of a value. `ValidatorImpl`
of `validate/validate.go` calls every rule whose pattern matches.
-/

namespace DMS.Parser

open Outcome List

/-- `F` are the floating-point numbers. A map has its entries in the order of a visit; `mixed` are
those of a `map[any]any` with strings as keys, and `other` the bytes, durations and times that the
decoder puts into a tree. -/
inductive Tree (F : Type) where
  | null
  | bool (b : Bool)
  | int (i : Int)
  | uint (n : Nat)
  | float (f : F)
  | str (s : GoString)
  | other
  | list (items : List (Tree F))
  | map (fields : List (GoString × Tree F))
  | mixed (fields : List (GoString × Tree F))

abbrev Fields (F : Type) := List (GoString × Tree F)

variable {F : Type}

def toMap (fields : Fields F) : GoMap GoString (Tree F) := GoMap.insertAll fields ∅

/-- `fields[key]`; `none` when the key is absent. -/
def valueAt (fields : Fields F) (key : String) : Option (Tree F) :=
  (toMap fields).lookup (ascii key)

variable {fields : Fields F} {key : GoString} {value t : Tree F} {items : List (Tree F)}

namespace Tree

/-- `value.(string)` -/
def asString : Tree F → Option GoString
  | .str s => some s
  | _ => none

/-- `value.(int)` -/
def asInt : Tree F → Option Int
  | .int i => some i
  | _ => none

/-- `value.([]any)` -/
def asList : Tree F → Option (List (Tree F))
  | .list items => some items
  | _ => none

/-- `value.(map[string]any)` -/
def asMap : Tree F → Option (Fields F)
  | .map fields => some fields
  | _ => none

def isNull : Tree F → Bool
  | .null => true
  | _ => false

theorem asMap_eq_some {t : Tree F} {fields} : t.asMap = some fields ↔ t = .map fields := by
  cases t <;> simp [asMap]

end Tree

/-- `fields[key].(string)` -/
def stringAt (fields : Fields F) (key : String) : Option GoString :=
  (valueAt fields key).bind Tree.asString

/-- `fields[key].([]any)` -/
def listAt (fields : Fields F) (key : String) : Option (List (Tree F)) :=
  (valueAt fields key).bind Tree.asList

/-- `fields[key].(map[string]any)` -/
def mapAt (fields : Fields F) (key : String) : Option (Fields F) :=
  (valueAt fields key).bind Tree.asMap

theorem mapAt_eq_some {key value} :
    mapAt fields key = some value ↔ valueAt fields key = some (.map value) := by
  simp [mapAt, Option.bind_eq_some_iff, Tree.asMap_eq_some]

abbrev Path := GoString

def Path.parts (path : Path) : List GoString := path.splitOn dot

theorem Path.parts_ne_nil (path : Path) : path.parts ≠ [] := List.splitOn_ne_nil dot path

/-- `Path.Next`; an empty key leads to the same path. -/
def Path.next (path : Path) (key : GoString) : Path :=
  if key = [] then path else if path = [] then key else path ++ dot :: key

def Path.last (path : Path) : GoString := path.parts.getLast?.getD []

def indexKey (i : Nat) : GoString := ascii "[" ++ itoa i ++ ascii "]"

/-- `strings.ToLower` on ASCII texts. -/
def lowerAscii (s : GoString) : GoString := s.map fun c => if 65 ≤ c && c ≤ 90 then c + 32 else c

def isAscii (s : GoString) : Bool := s.all (· < 128)

/-- `strings.EqualFold`; `unicode` is what it says when a letter is not ASCII. -/
def equalFold (unicode : GoString → GoString → Bool) (s t : GoString) : Bool :=
  if isAscii s && isAscii t then lowerAscii s == lowerAscii t else unicode s t

/-- The first `true` or the first panic, whichever comes first. -/
def anyMatch {A : Type} (f : A → Except String Bool) : List A → Except String Bool
  | [] => .ok false
  | a :: as =>
    (f a).bind fun found => if found then .ok true else anyMatch f as

/-- The loop of `matchParts` from one part of the pattern on; behind the last one the path has to
end as well. Looking at the first byte of an empty part panics. -/
def matchFrom (unicode : GoString → GoString → Bool) :
    List GoString → List GoString → Except String Bool
  | [], path => .ok path.isEmpty
  | _ :: _, [] => .ok false
  | pattern :: patterns, part :: parts =>
    if pattern = ascii "**" then
      if patterns = [] then .ok true
      else
        -- a search without a match falls through to the next part of the pattern
        (anyMatch (fun rest =>
          if rest.length < patterns.length then .ok false
          else matchFrom unicode patterns rest) (part :: parts).tails).bind fun found =>
            if found then .ok true else matchFrom unicode patterns parts
    else if pattern = ascii "[]" then
      if part = [] then .error "index out of range"
      else if part.head? = some 91 ∧ part.getLast? = some 93 then
        matchFrom unicode patterns parts
      else .ok false
    else if pattern = ascii "*" ∨ equalFold unicode pattern part = true then
      matchFrom unicode patterns parts
    else .ok false

def matchParts (unicode : GoString → GoString → Bool) (pathParts patternParts : List GoString) :
    Except String Bool :=
  if pathParts.length < patternParts.length then .ok false
  else if patternParts = [] then .ok true
  else matchFrom unicode patternParts pathParts

def Path.matches (unicode : GoString → GoString → Bool) (path : Path) (pattern : String) :
    Except String Bool :=
  matchParts unicode path.parts (Path.parts (ascii pattern))

/-- A key that adds exactly one part to a path. -/
def Plain (key : GoString) : Prop := key ≠ [] ∧ dot ∉ key

instance (key : GoString) : Decidable (Plain key) := inferInstanceAs (Decidable (_ ∧ _))

variable {path : Path} {pattern : String}

theorem dot_not_mem_itoa (n : Nat) : dot ∉ itoa n := by
  intro hdot
  exact absurd ((digitsValue_itoa n).2 dot hdot) (by decide)

theorem plain_indexKey (i : Nat) : Plain (indexKey i) := by
  have hopen : dot ∉ ascii "[" := by decide
  have hclose : dot ∉ ascii "]" := by decide
  refine ⟨by simp [indexKey, ascii], ?_⟩
  simp [indexKey, hopen, hclose, dot_not_mem_itoa]

theorem getLast?_indexKey (i : Nat) : (indexKey i).getLast? = some 93 := by
  have hclose : ascii "]" = [93] := by decide
  rw [indexKey, hclose, getLast?_concat]

def Fits (unicode : GoString → GoString → Bool) (pattern part : GoString) : Prop :=
  pattern ≠ ascii "**" ∧ if pattern = ascii "[]" then ∃ i, part = indexKey i
    else pattern = ascii "*" ∨ equalFold unicode pattern part = true

theorem matchFrom_of_fits {u ps parts} (h : List.Forall₂ (Fits u) ps parts) :
    matchFrom u ps parts = .ok true := by
  induction h with
  | nil => rfl
  | @cons pattern part ps parts hfits hrest ih =>
    obtain ⟨hone, hfits⟩ := hfits
    rw [matchFrom, if_neg hone]
    split at hfits
    · next hlist =>
      obtain ⟨i, rfl⟩ := hfits
      rw [if_pos hlist, if_neg (plain_indexKey i).1, if_pos ⟨rfl, getLast?_indexKey i⟩, ih]
    · next hlist => rw [if_neg hlist, if_pos hfits, ih]

/-- A `ValidatorFunc` for one document. -/
abbrev Rule (F : Type) := Path → Tree F → Except String Unit

def applyRules (unicode : GoString → GoString → Bool) (path : Path) (t : Tree F) :
    List (String × Rule F) → Except String Unit
  | [] => .ok ()
  | (pattern, rule) :: rules =>
    (path.matches unicode pattern).bind fun found =>
      (if found then rule path t else .ok ()).bind fun _ => applyRules unicode path t rules

section Walk

variable (unicode : GoString → GoString → Bool) (rules : List (String × Rule F))

mutual

def validate (path : Path) : Tree F → Except String Unit
  | .map fields =>
    (applyRules unicode path (.map fields) rules).bind fun _ => validateFields path fields
  | .list items =>
    (applyRules unicode path (.list items) rules).bind fun _ => validateItems path 0 items
  | t => applyRules unicode path t rules

def validateFields (path : Path) : List (GoString × Tree F) → Except String Unit
  | [] => .ok ()
  | (key, value) :: rest =>
    (validate (path.next key) value).bind fun _ => validateFields path rest

def validateItems (path : Path) (i : Nat) : List (Tree F) → Except String Unit
  | [] => .ok ()
  | value :: rest =>
    (validate (path.next (indexKey i)) value).bind fun _ => validateItems path (i + 1) rest

end

variable {u rules}

theorem applyRules_ok {rules} (h : applyRules u path t rules = .ok ()) {rule}
    (hrule : (pattern, rule) ∈ rules) (hmatch : path.matches u pattern = .ok true) :
    rule path t = .ok () := by
  induction rules with
  | nil => simp at hrule
  | cons head rules ih =>
    obtain ⟨found, hfound, h⟩ := bind_eq_ok.mp h
    obtain ⟨⟨⟩, hhead, htail⟩ := bind_eq_ok.mp h
    rcases mem_cons.mp hrule with heq | hin
    · cases heq
      cases hmatch.symm.trans hfound
      exact hhead
    · exact ih htail hin

theorem applyRules_of_validate
    (h : validate u rules path t = .ok ()) : applyRules u path t rules = .ok () := by
  cases t with
  | map fields | list items =>
    obtain ⟨⟨⟩, hrules, -⟩ := bind_eq_ok.mp h
    exact hrules
  | _ => simpa only [validate] using h

theorem validateFields_mem (h : validateFields u rules path fields = .ok ())
    (hin : (key, value) ∈ fields) : validate u rules (path.next key) value = .ok () := by
  induction fields with
  | nil => simp at hin
  | cons head rest ih =>
    obtain ⟨⟨⟩, hhead, htail⟩ := bind_eq_ok.mp h
    rcases mem_cons.mp hin with heq | hin
    · cases heq
      exact hhead
    · exact ih htail hin

theorem validate_field (h : validate u rules path (.map fields) = .ok ())
    (hin : (key, value) ∈ fields) : validate u rules (path.next key) value = .ok () := by
  obtain ⟨⟨⟩, -, hfields⟩ := bind_eq_ok.mp h
  exact validateFields_mem hfields hin

end Walk

end DMS.Parser
