import DMS.Jobs.Manifest
import DMS.Parser.Accepted

/-! # Identifiers of allocations

`types/allocation.go` takes apart what `types/default_id_generators.go` puts together: the
identifier `ensemble_node.allocation` and the manifest key `node.allocation`. The validator lets an
allocation have dots in its name, and a node any name.
-/

namespace DMS.Jobs

open Option List

def allocationNameFromID (id : GoString) : GoString :=
  match cutLast underscore id with
  | some (_, after) => after
  | none => id

def ensembleIDFromAllocationID (id : GoString) : GoString :=
  match cutLast underscore id with
  | some (before, _) => before
  | none => id

/-- `ParseAllocationID`: what stands behind the first `_` is read as a manifest key is,
but a text with `standby` in it that marks no standby node is refused. -/
def parseAllocationID (id : GoString) : Option (GoString × AllocationIdentifier) :=
  match cut (ascii "_") id with
  | none => none
  | some (ensembleID, rest) =>
    if (cut standbyInfix rest).isNone ∧ (cut (ascii "standby") rest).isSome then none
    else (parseManifestKey rest).map fun identifier => (ensembleID, identifier)

def AllocationIdentifier.IsOf (identifier : AllocationIdentifier) (n a : GoString) : Prop :=
  identifier.nodeID = n ∧ identifier.allocationName = a

theorem dot_not_mem_standby : dot ∉ standbyInfix ∧ dot ∉ ascii "standby" := by decide

variable {index n primary a e key : GoString}

theorem splitOn_pair_iff {x y name : GoString} :
    (x ++ dot :: y).splitOn dot = [index, name] ↔ dot ∉ x ∧ dot ∉ y ∧ index = x ∧ name = y := by
  constructor
  · intro h
    obtain ⟨hx, hy⟩ := splitOn_length_two.mp (congrArg length h)
    rw [splitOn_two_parts hx hy] at h
    cases h
    exact ⟨hx, hy, rfl, rfl⟩
  · rintro ⟨hx, hy, rfl, rfl⟩
    exact splitOn_two_parts hx hy

theorem cut_isNone_append {sep : GoString} (hsep : dot ∉ sep) (hne : sep ≠ []) (x y : GoString) :
    cut sep (x ++ dot :: y) = none ↔ cut sep x = none ∧ cut sep y = none := by
  rw [cut_append_cons hsep hne]
  cases cut sep x with
  | some parts | none => simp

theorem parseNodeName_iff (hcut : cut standbyInfix n = some (primary, index)) (i : Int) :
    parseNodeName n = some (primary, i) ↔ cut standbyInfix index = none ∧ atoi index = some i := by
  simp [parseNodeName_eq_some_iff, hcut]

theorem standbyName_eq (i : Int) :
    standbyName primary i = primary ++ (standbyInfix ++ decimal i) := by
  simp [standbyName, decimal]

theorem dot_not_mem_index {i}
    (hcut : cut standbyInfix n = some (primary, index)) (hname : n = standbyName primary i) :
    dot ∉ index := by
  have hsame := (cut_eq_some hcut).symm.trans hname
  rw [standbyName_eq, append_right_inj, append_right_inj] at hsame
  exact hsame ▸ not_mem_decimal (by decide) i

theorem parseManifestKey_standby (hcut : cut standbyInfix n = some (primary, index)) :
    (∃ ident, parseManifestKey (n ++ dot :: a) = some ident ∧ ident.IsOf n a) ↔
      dot ∉ a ∧ cut standbyInfix a = none ∧
        ∃ i, parseNodeName n = some (primary, i) ∧ n = standbyName primary i := by
  have hkey : cut standbyInfix (n ++ dot :: a) = some (primary, index ++ dot :: a) := by
    rw [cut_append_cons dot_not_mem_standby.1 (by decide), hcut]
  have hrest := cut_isNone_append dot_not_mem_standby.1 (by decide) index a
  rw [parseManifestKey, hkey]
  dsimp only
  constructor
  · rintro ⟨ident, hparse, hnode, hname⟩
    split at hparse
    · cases hparse
    rename_i hnone
    obtain ⟨hindex, ha⟩ := hrest.mp (by simpa using hnone)
    split at hparse
    · next index' name hsplit =>
      obtain ⟨-, hdot, rfl, rfl⟩ := splitOn_pair_iff.mp hsplit
      obtain ⟨i, hi, rfl⟩ := map_eq_some_iff.mp hparse
      exact ⟨hdot, ha, i, (parseNodeName_iff hcut i).mpr ⟨hindex, hi⟩, hnode.symm⟩
    · cases hparse
  rintro ⟨hdot, ha, i, hnode, hname⟩
  obtain ⟨hindex, hi⟩ := (parseNodeName_iff hcut i).mp hnode
  have hsplit := splitOn_pair_iff.mpr ⟨dot_not_mem_index hcut hname, hdot, rfl, rfl⟩
  refine ⟨⟨standbyName primary i, a, true, i⟩, ?_, hname.symm, rfl⟩
  rw [hrest.mpr ⟨hindex, ha⟩, hsplit]
  exact map_eq_some_iff.mpr ⟨i, hi, rfl⟩

theorem parseManifestKey_primary (hcut : cut standbyInfix n = none) :
    (∃ ident, parseManifestKey (n ++ dot :: a) = some ident ∧ ident.IsOf n a) ↔
      dot ∉ n ∧ dot ∉ a ∧ cut standbyInfix a = none := by
  rw [parseManifestKey, cut_append_cons dot_not_mem_standby.1 (by decide), hcut]
  cases ha : cut standbyInfix a with
  | some parts =>
    obtain ⟨pre, after⟩ := parts
    simp only [map_some, reduceCtorEq, and_false, iff_false]
    rintro ⟨ident, hparse, -, hname⟩
    split at hparse
    · cases hparse
    split at hparse
    · next index allocName hsplit =>
      -- what is left for the name is shorter than the name
      obtain ⟨i, -, rfl⟩ := map_eq_some_iff.mp hparse
      have hlong := congrArg length (cut_eq_some ha)
      have hjoin : [dot].intercalate [index, allocName] = after := by
        rw [← hsplit, intercalate_splitOn]
      have hshort : index.length + (allocName.length + 1) = after.length := by
        rw [← hjoin]
        simp [intercalate]
      rw [length_append, length_append] at hlong
      have hsame : allocName.length = a.length := congrArg length hname
      omega
    · cases hparse
  | none =>
    simp only [map_none, and_true]
    constructor
    · rintro ⟨ident, hparse, -, -⟩
      split at hparse
      · next nid allocName hsplit =>
        obtain ⟨hn, ha, -, -⟩ := splitOn_pair_iff.mp hsplit
        exact ⟨hn, ha⟩
      · cases hparse
    rintro ⟨hn, hdot⟩
    rw [splitOn_pair_iff.mpr ⟨hn, hdot, rfl, rfl⟩]
    exact ⟨_, rfl, rfl, rfl⟩

structure Readable (n a : GoString) : Prop where
  ensemble : underscore ∉ n
  name : dot ∉ a ∧ cut standbyInfix a = none
  node : (dot ∉ n ∧ cut (ascii "standby") n = none ∧ cut (ascii "standby") a = none) ∨
    ∃ primary i, parseNodeName n = some (primary, i) ∧ n = standbyName primary i

theorem cut_standbyInfix_of_standby {s} (h : cut (ascii "standby") s = none) :
    cut standbyInfix s = none := by
  cases hcut : cut standbyInfix s with
  | none => rfl
  | some parts =>
    have hsplit : standbyInfix = ascii "-" ++ (ascii "standby" ++ ascii "-") := by decide
    have hs := cut_eq_some hcut
    rw [hsplit, append_assoc, ← append_assoc] at hs
    rw [hs] at h
    exact absurd h (cut_append_ne_none _ _ _)

theorem parseManifestKey_iff :
    ((∃ ident, parseManifestKey (n ++ dot :: a) = some ident ∧ ident.IsOf n a) ∧
        ¬ (cut standbyInfix (n ++ dot :: a) = none ∧
          cut (ascii "standby") (n ++ dot :: a) ≠ none)) ↔ (dot ∉ a ∧ cut standbyInfix a = none) ∧
        ((dot ∉ n ∧ cut (ascii "standby") n = none ∧ cut (ascii "standby") a = none) ∨
          ∃ primary i, parseNodeName n = some (primary, i) ∧ n = standbyName primary i) := by
  rw [cut_isNone_append dot_not_mem_standby.1 (by decide), ne_eq,
    cut_isNone_append dot_not_mem_standby.2 (by decide)]
  cases hcut : cut standbyInfix n with
  | some parts =>
    obtain ⟨primary, index⟩ := parts
    have hnode : ∀ p i, parseNodeName n = some (p, i) → p = primary := by
      intro p i h
      obtain ⟨_, hcut', -⟩ := parseNodeName_eq_some_iff.mp h
      cases hcut.symm.trans hcut'
      rfl
    have hstandby : cut (ascii "standby") n ≠ none := by
      intro h
      rw [cut_standbyInfix_of_standby h] at hcut
      cases hcut
    rw [parseManifestKey_standby hcut]
    constructor
    · rintro ⟨⟨hdot, ha, i, hparse, hname⟩, -⟩
      exact ⟨⟨hdot, ha⟩, .inr ⟨primary, i, hparse, hname⟩⟩
    rintro ⟨⟨hdot, ha⟩, hor⟩
    refine ⟨⟨hdot, ha, ?_⟩, by simp⟩
    rcases hor with ⟨-, hnone, -⟩ | ⟨p, i, hparse, hname⟩
    · exact absurd hnone hstandby
    · obtain rfl := hnode p i hparse
      exact ⟨i, hparse, hname⟩
  | none =>
    have hnode : parseNodeName n = none := by
      rw [parseNodeName, hcut]
    rw [parseManifestKey_primary hcut]
    constructor
    · rintro ⟨⟨hn, hdot, ha⟩, hstandby⟩
      refine ⟨⟨hdot, ha⟩, .inl ⟨hn, ?_⟩⟩
      by_contra hsome
      exact hstandby ⟨⟨rfl, ha⟩, hsome⟩
    rintro ⟨⟨hdot, ha⟩, ⟨hn, hstandby⟩ | ⟨p, i, hparse, -⟩⟩
    · exact ⟨⟨hn, hdot, ha⟩, fun h => h.2 hstandby⟩
    · cases hnode.symm.trans hparse

structure Recovers (e n a fullID key : GoString) : Prop where
  full : ∃ identifier, parseAllocationID fullID = some (e, identifier) ∧ identifier.IsOf n a
  manifest : ∃ identifier, parseManifestKey key = some identifier ∧ identifier.IsOf n a
  name : allocationNameFromID fullID = key
  ensemble : ensembleIDFromAllocationID fullID = e

theorem parseAllocationID_append (he : underscore ∉ e) :
    parseAllocationID (e ++ underscore :: key) =
      if cut standbyInfix key = none ∧ cut (ascii "standby") key ≠ none then none
      else (parseManifestKey key).map fun ident => (e, ident) := by
  have hsep : ascii "_" = [underscore] := by decide
  rw [parseAllocationID, hsep, cut_singleton he]
  simp only [isNone_iff_eq_none, isSome_iff_ne_none]

theorem parseAllocationID_iff (he : underscore ∉ e) :
    (∃ ident, parseAllocationID (e ++ underscore :: (n ++ dot :: a)) = some (e, ident) ∧
        ident.IsOf n a) ↔
      (∃ ident, parseManifestKey (n ++ dot :: a) = some ident ∧ ident.IsOf n a) ∧
        ¬ (cut standbyInfix (n ++ dot :: a) = none ∧
          cut (ascii "standby") (n ++ dot :: a) ≠ none) := by
  rw [parseAllocationID_append he]
  split
  · next hrefused => simp [hrefused]
  rename_i hread
  constructor
  · rintro ⟨ident, hparse, hof⟩
    obtain ⟨_, hkey, ⟨⟩⟩ := map_eq_some_iff.mp hparse
    exact ⟨⟨ident, hkey, hof⟩, hread⟩
  · rintro ⟨⟨ident, hkey, hof⟩, -⟩
    exact ⟨ident, map_eq_some_iff.mpr ⟨ident, hkey, rfl⟩, hof⟩

/-- `ManifestKey`; the node of an identifier that was parsed has the standby suffix already. -/
def AllocationIdentifier.manifestKey (aid : AllocationIdentifier) : GoString :=
  (if aid.isStandby ∧ (cut standbyInfix aid.nodeID).isNone then
    standbyName aid.nodeID aid.standbyIndex else aid.nodeID) ++ dot :: aid.allocationName

def AllocationIdentifier.string (ensembleID : GoString) (aid : AllocationIdentifier) : GoString :=
  ensembleID ++ underscore :: aid.manifestKey

theorem parseManifestKey_manifestKey {aid} (h : parseManifestKey key = some aid) :
    parseManifestKey aid.manifestKey = some aid ∧
      (cut standbyInfix aid.manifestKey = none → aid.manifestKey = key) := by
  have hpair : ∀ {s x y : GoString}, s.splitOn dot = [x, y] → s = x ++ dot :: y ∧ dot ∉ y := by
    intro s x y hs
    have hjoin : [dot].intercalate (s.splitOn dot) = s := intercalate_splitOn dot
    rw [hs] at hjoin
    exact ⟨by simpa [intercalate] using hjoin.symm, not_mem_of_mem_splitOn (s := s) (by simp [hs])⟩
  have hread := h
  unfold parseManifestKey at h
  split at h
  · next primary rest hcut =>
    obtain ⟨hone, h⟩ := ite_none_left_eq_some.mp h
    split at h
    · next index a hsplit =>
      obtain ⟨i, hi, rfl⟩ := map_eq_some_iff.mp h
      obtain ⟨rfl, hdot⟩ := hpair hsplit
      obtain ⟨-, ha⟩ := (cut_isNone_append dot_not_mem_standby.1 (by decide) index a).mp
        (by simpa using hone)
      have hread : ReadBack primary := (readBack_iff _).mp (by rw [← cut_eq_some hcut, hcut])
      have hcut := fun rest => (readBack_iff rest).mpr hread
      have hnone : cut standbyInfix (decimal i) = none :=
        cut_eq_none_of_not_mem (c := 115) (by decide) (not_mem_decimal (by decide) i)
      have hkey : AllocationIdentifier.manifestKey ⟨standbyName primary i, a, true, i⟩ =
          primary ++ (standbyInfix ++ (decimal i ++ dot :: a)) := by
        simp only [AllocationIdentifier.manifestKey, standbyName_eq, hcut]
        simp
      rw [hkey, parseManifestKey, hcut]
      refine ⟨?_, by simp⟩
      dsimp only
      rw [(cut_isNone_append dot_not_mem_standby.1 (by decide) _ a).mpr ⟨hnone, ha⟩,
        splitOn_pair_iff.mpr ⟨not_mem_decimal (by decide) i, hdot, rfl, rfl⟩]
      simp [atoi_decimal hi]
    · cases h
  · next hcut =>
    split at h
    · next n a hsplit =>
      cases h
      have hkey : AllocationIdentifier.manifestKey ⟨n, a, false, 0⟩ = key := by
        simp [AllocationIdentifier.manifestKey, (hpair hsplit).1]
      rw [hkey]
      exact ⟨hread, fun _ => rfl⟩
    · cases h

/-- The two parsers read one key in the same way under every ensemble, and what they read
is printed so that it is read again. -/
structure ParsersAgree (key : GoString) : Prop where
  same : ∀ e, underscore ∉ e → parseAllocationID (e ++ underscore :: key) =
    (parseManifestKey key).map fun aid => (e, aid)
  back : ∀ e aid, underscore ∉ e → parseManifestKey key = some aid →
    parseManifestKey aid.manifestKey = some aid ∧ parseAllocationID (aid.string e) = some (e, aid)

theorem parsers_agree_iff (key : GoString) : ParsersAgree key ↔
    cut standbyInfix key ≠ none ∨ cut (ascii "standby") key = none ∨
      parseManifestKey key = none := by
  constructor
  · intro h
    by_contra hcond
    simp only [not_or, ne_eq, not_not] at hcond
    have hsame := h.same [] not_mem_nil
    rw [parseAllocationID_append not_mem_nil, if_pos ⟨hcond.1, hcond.2.1⟩] at hsame
    exact hcond.2.2 (by simpa using hsame.symm)
  intro hcond
  refine ⟨fun e he => ?_, fun e aid he hkey => ?_⟩
  · rw [parseAllocationID_append he]
    split
    · next hrefused => simp [(hcond.resolve_left (by simp [hrefused.1])).resolve_left hrefused.2]
    · rfl
  · obtain ⟨hback, hsame⟩ := parseManifestKey_manifestKey hkey
    refine ⟨hback, ?_⟩
    rw [AllocationIdentifier.string, parseAllocationID_append he, hback, if_neg]
    · rfl
    · rintro ⟨hnone, hstandby⟩
      simp_all

theorem parsers_disagree : ¬ ParsersAgree (ascii "standby.web") := by
  intro h
  exact absurd (h.same (ascii "e") (by decide)) (by decide)

theorem underscore_not_mem_of_dns (h : isDNSNameValid a = true) : underscore ∉ a := by
  intro hin
  obtain ⟨label, hlabel, hin⟩ := mem_splitOn hin (d := dot) (by decide)
  have hvalid := all_eq_true.mp h label hlabel
  simp only [isLabel, Bool.and_eq_true] at hvalid
  exact absurd (all_eq_true.mp hvalid.2 underscore hin) (by decide)

theorem lastUnderscore_iff : (allocationNameFromID (e ++ underscore :: key) = key ∧
      ensembleIDFromAllocationID (e ++ underscore :: key) = e) ↔ underscore ∉ key := by
  unfold allocationNameFromID ensembleIDFromAllocationID
  constructor
  · intro h
    cases hcut : cutLast underscore (e ++ underscore :: key) with
    | none => exact absurd (by simp) (cutLast_eq_none.mp hcut)
    | some parts =>
      rw [hcut] at h
      exact h.1 ▸ cutLast_eq_some hcut
  intro h
  rw [cutLast_append e h]
  exact ⟨rfl, rfl⟩

theorem generateFullAllocationID_eq {fullID} (h : generateFullAllocationID e n a = some fullID) :
    fullID = e ++ underscore :: (n ++ dot :: a) := by
  have hsep : ascii "_" = [underscore] := by decide
  unfold generateFullAllocationID at h
  rw [hsep] at h
  obtain ⟨-, heq⟩ := ite_none_left_eq_some.mp h
  simpa using heq.symm

theorem generateManifestKey_eq (h : generateManifestKey n a = some key) : key = n ++ dot :: a := by
  obtain ⟨-, heq⟩ := ite_none_left_eq_some.mp h
  exact (some.inj heq).symm

/-- The identifiers of one node and one allocation are taken apart as they were put
together exactly when the names are readable. -/
theorem recovers_iff {fullID} (he : underscore ∉ e)
    (ha : isDNSNameValid a = true) (hfull : generateFullAllocationID e n a = some fullID)
    (hkey : generateManifestKey n a = some key) : Recovers e n a fullID key ↔ Readable n a := by
  obtain rfl := generateFullAllocationID_eq hfull
  obtain rfl := generateManifestKey_eq hkey
  have hread := (parseAllocationID_iff (n := n) (a := a) he).trans parseManifestKey_iff
  have hlast : underscore ∉ n ++ dot :: a ↔ underscore ∉ n := by
    have hdot : underscore ≠ dot := by decide
    simp [hdot, underscore_not_mem_of_dns ha]
  constructor
  · intro h
    obtain ⟨hname, hnode⟩ := hread.mp h.full
    exact ⟨hlast.mp (lastUnderscore_iff.mp ⟨h.name, h.ensemble⟩), hname, hnode⟩
  intro h
  have hfull := hread.mpr ⟨h.name, h.node⟩
  obtain ⟨hname, hensemble⟩ := lastUnderscore_iff.mpr (hlast.mpr h.ensemble)
  exact ⟨hfull, ((parseAllocationID_iff he).mp hfull).1, hname, hensemble⟩

section Accepted

open DMS.Parser

variable {F : Type}

/-- A node and an allocation of a specification; its nodes have standby nodes. -/
structure Named (spec : Fields F) (n a : GoString) : Prop where
  allocation : ∃ allocs, valueAt spec "allocations" = some (.map allocs) ∧ a ∈ toMap allocs
  node : ∃ nodes, valueAt spec "nodes" = some (.map nodes) ∧
    ∃ m ∈ toMap nodes, n = m ∨ ∃ i, generateStandbyNodeID m i = some n

theorem Named.dns {r : Reading F} {spec} {n a : GoString} (h : Named spec n a)
    (haccepts : BasicParser.accepts r spec = .ok ()) : isDNSNameValid a = true := by
  have hseen := seenSpec_of_accepts haccepts
  obtain ⟨allocs, hvalue, hin⟩ := h.allocation
  cases hseen.value.symm.trans hvalue
  exact hseen.named a hin

/-- The identifiers of an accepted ensemble are taken apart as they were put together, and no two
keys are the same, exactly for readable names. -/
theorem identifiers_recovered_iff (r : Reading F) {spec : Fields F}
    (haccepts : BasicParser.accepts r spec = .ok ()) {e : GoString} (he : underscore ∉ e)
    {n n' a a' fullID fullID' key key' : GoString} (h : Named spec n a) (h' : Named spec n' a')
    (hfull : generateFullAllocationID e n a = some fullID)
    (hfull' : generateFullAllocationID e n' a' = some fullID')
    (hkey : generateManifestKey n a = some key) (hkey' : generateManifestKey n' a' = some key') :
    (Recovers e n a fullID key ∧ Recovers e n' a' fullID' key' ∧ ((n, a) ≠ (n', a') → key ≠ key')) ↔
      Readable n a ∧ Readable n' a' := by
  have hone := recovers_iff he (h.dns haccepts) hfull hkey
  have hother := recovers_iff he (h'.dns haccepts) hfull' hkey'
  rw [← hone, ← hother]
  constructor
  · rintro ⟨hr, hr', -⟩
    exact ⟨hr, hr'⟩
  rintro ⟨hr, hr'⟩
  refine ⟨hr, hr', ?_⟩
  -- the key determines what is read from it
  rintro hne rfl
  obtain ⟨identifier, hparse, rfl, rfl⟩ := hr.manifest
  obtain ⟨identifier', hparse', rfl, rfl⟩ := hr'.manifest
  obtain rfl : identifier = identifier' := some.inj (hparse.symm.trans hparse')
  exact hne rfl

end Accepted

def namesSpec (node allocation : String) : Parser.Fields Int :=
  [(ascii "allocations", .map [(ascii allocation, Parser.sampleAllocation)]),
    (ascii "nodes", .map [(ascii node, .map [
      (ascii "allocations", .list [.str (ascii allocation)]),
      (ascii "failure_recovery", .str (ascii "stay_down"))])])]

/-- A node and its first standby node. -/
theorem standby_identifiers_recovered :
    Recovers (ascii "e1") (ascii "n1") (ascii "web") (ascii "e1_n1.web") (ascii "n1.web") ∧
      Recovers (ascii "e1") (ascii "n1-standby-1") (ascii "web")
        (ascii "e1_n1-standby-1.web") (ascii "n1-standby-1.web") := by
  have hprimary : Named (namesSpec "n1" "web") (ascii "n1") (ascii "web") :=
    ⟨⟨_, rfl, by decide⟩, _, rfl, ascii "n1", by decide, .inl rfl⟩
  have hstandby : Named (namesSpec "n1" "web") (ascii "n1-standby-1") (ascii "web") :=
    ⟨⟨_, rfl, by decide⟩, _, rfl, ascii "n1", by decide, .inr ⟨1, by decide⟩⟩
  refine ((identifiers_recovered_iff Parser.plainReading (by decide +kernel) (by decide) hprimary
    hstandby (by decide) (by decide) (by decide) (by decide)).mpr ⟨?_, ?_⟩).imp_right And.left
  · exact ⟨by decide, by decide, .inl (by decide)⟩
  · exact ⟨by decide, by decide, .inr ⟨ascii "n1", 1, by decide, by decide⟩⟩

/-- The validator accepts the name of the allocation, and its key has three parts. -/
theorem dotted_name_not_recovered :
    Parser.BasicParser.accepts Parser.plainReading (namesSpec "n1" "db.primary") = .ok () ∧
      Named (namesSpec "n1" "db.primary") (ascii "n1") (ascii "db.primary") ∧
      generateFullAllocationID (ascii "e1") (ascii "n1") (ascii "db.primary") =
        some (ascii "e1_n1.db.primary") ∧ parseAllocationID (ascii "e1_n1.db.primary") = none ∧
      parseManifestKey (ascii "n1.db.primary") = none := by
  refine ⟨by decide +kernel, ?_, by decide, by decide, by decide⟩
  exact ⟨⟨_, rfl, by decide⟩, _, rfl, ascii "n1", by decide, .inl rfl⟩

end DMS.Jobs
