import DMS.Core.GoMap
import DMS.Core.GoText

/-! # Resolving placeholders

`Resolver.Process` of `resolve/resolver.go`. A text is searched from its beginning after each
substitution, so that a placeholder in a substituted value is resolved as well, and the loop need
not end.
-/

namespace DMS.Parser

open List

def dollar : UInt8 := 36

def openingBrace : UInt8 := 123

def closingBrace : UInt8 := 125

/-- The whole match for a content of the group. -/
def expression (content : GoString) : GoString :=
  dollar :: openingBrace :: (content ++ [closingBrace])

/-- The class `[^{}]`. -/
def inBraces (c : UInt8) : Bool := c ≠ openingBrace ∧ c ≠ closingBrace

/-- What a text that follows a dollar sign has in braces. -/
def braced : GoString → Option GoString
  | [] => none
  | c :: rest =>
    if c = openingBrace ∧ rest.takeWhile inBraces ≠ [] ∧
        (rest.dropWhile inBraces).head? = some closingBrace then
      some (rest.takeWhile inBraces)
    else none

/-- The content of the first match of the regular expression. -/
def nextContent : GoString → Option GoString
  | [] => none
  | c :: rest =>
    match if c = dollar then braced rest else none with
    | some content => some content
    | none => nextContent rest

inductive ResolveCause
  | notExist
  | unknownSource (source : GoString)
  | reading (text : String)
deriving DecidableEq, Repr

abbrev Handler := GoString → Except ResolveCause GoString

def envResolver (getenv : GoString → GoString) : Handler := fun key =>
  if getenv key = [] then .error .notExist else .ok (getenv key)

/-- A handler of files below the working directory, given what reading them says. -/
def sourceHandlers (getenv : GoString → GoString) (file : Handler) : GoMap GoString Handler :=
  ((∅ : GoMap GoString Handler).insert (ascii "env") (envResolver getenv)).insert (ascii "file")
    file

def resolveContent (handlers : GoMap GoString Handler) (content : GoString) :
    Except ResolveCause GoString :=
  let parts := cut (ascii ":-") content
  let mainPart := (parts.map Prod.fst).getD content
  let sourceAndKey := ((cut (ascii "|") mainPart).map Prod.fst).getD mainPart
  let (source, key) := (cut (ascii ":") sourceAndKey).getD (ascii "env", sourceAndKey)
  match handlers.lookup source with
  | none => .error (.unknownSource source)
  | some handler =>
    match handler key, parts with
    | .error _, some (_, defaultValue) => .ok defaultValue
    | out, _ => out

/-- `bytes.Replace` of the first occurrence. -/
def replaceFirst (text old new : GoString) : GoString :=
  match cut old text with
  | none => text
  | some (before, after) => before ++ new ++ after

/-- The loop, for a number of turns. -/
def process (handlers : GoMap GoString Handler) :
    Nat → GoString → Option (Except (GoError ResolveCause) GoString)
  | 0, _ => none
  | turns + 1, text =>
    match nextContent text with
    | none => some (.ok text)
    | some content =>
      match resolveContent handlers content with
      | .error e => some (.error ((GoError.new e).wrap
          ("failed to resolve expression '" ++ printed (expression content) ++ "'")))
      | .ok value => process handlers turns (replaceFirst text (expression content) value)

theorem braced_eq_some {text content} (h : braced text = some content) :
    ∃ after, text = openingBrace :: (content ++ (closingBrace :: after)) := by
  cases text with
  | nil => simp [braced] at h
  | cons c rest =>
    simp only [braced, Option.ite_none_right_eq_some, Option.some.injEq] at h
    obtain ⟨⟨rfl, _, hclose⟩, rfl⟩ := h
    obtain ⟨after, hafter⟩ := head?_eq_some_iff.mp hclose
    refine ⟨after, congrArg _ ?_⟩
    rw [← hafter, takeWhile_append_dropWhile]

theorem nextContent_eq_some {text content} (h : nextContent text = some content) :
    ∃ pre after, text = pre ++ (expression content ++ after) := by
  induction text with
  | nil => simp [nextContent] at h
  | cons c rest ih =>
    rw [nextContent] at h
    split at h
    · next found hfound =>
      obtain ⟨rfl, hbraced⟩ := Option.ite_none_right_eq_some.mp hfound
      obtain rfl := Option.some.inj h
      obtain ⟨after, rfl⟩ := braced_eq_some hbraced
      exact ⟨[], after, by simp [expression]⟩
    · obtain ⟨pre, after, rfl⟩ := ih h
      exact ⟨c :: pre, after, rfl⟩

variable {handlers : GoMap GoString Handler}

/-- The texts that the loop comes to. -/
inductive Reached (handlers : GoMap GoString Handler) (input : GoString) : GoString → Prop
  | start : Reached handlers input input
  | turn {text content value} : Reached handlers input text → nextContent text = some content →
      resolveContent handlers content = .ok value →
      Reached handlers input (replaceFirst text (expression content) value)

/-- No placeholder that the loop comes to is replaced by more dollar signs than it has between its
braces. -/
def Dwindles (handlers : GoMap GoString Handler) (input : GoString) : Prop :=
  ∀ text content value, Reached handlers input text → nextContent text = some content →
    resolveContent handlers content = .ok value → value.count dollar ≤ content.count dollar

/-- Values without a dollar sign are enough for every input: a default value is a part of its
placeholder. -/
theorem Dwindles.of_sources (h : ∀ source handler key value,
    handlers.lookup source = some handler → handler key = .ok value → dollar ∉ value)
    (input : GoString) : Dwindles handlers input := by
  intro text content value _ _ hvalue
  unfold resolveContent at hvalue
  dsimp only at hvalue
  split at hvalue
  · simp at hvalue
  rename_i handler hhandler
  split at hvalue
  · next e main defaultValue _ hparts =>
    obtain rfl := Except.ok.inj hvalue
    rw [cut_eq_some hparts, count_append, count_append]
    omega
  · rw [count_eq_zero_of_not_mem (h _ _ _ _ hhandler hvalue)]
    exact Nat.zero_le _

theorem count_replaceFirst {text content value : GoString}
    (hcontent : nextContent text = some content)
    (hvalue : value.count dollar ≤ content.count dollar) :
    (replaceFirst text (expression content) value).count dollar < text.count dollar := by
  obtain ⟨pre, after, htext⟩ := nextContent_eq_some hcontent
  unfold replaceFirst
  split
  · next hnone => exact absurd (htext ▸ hnone) (cut_append_ne_none pre _ after)
  rename_i before' after' hcut
  rw [cut_eq_some hcut]
  simp only [expression, count_append, count_cons_self, count_cons, count_nil]
  omega

/-- The variable `X` has the value, and every other one has a dollar sign in it. -/
def sampleEnv (value : GoString) : GoString → GoString :=
  fun key => if key = ascii "X" then value else ascii "$ "

def sampleSources (value : GoString) : GoMap GoString Handler :=
  sourceHandlers (sampleEnv value) fun _ => .error .notExist

end DMS.Parser
