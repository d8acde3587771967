import Mathlib.Data.List.Nodup
import Octoglyph.Harness.Suite

/-! # Merged suites

Merging goes through the cases of one suite while it changes the other. What comes out is told by
all the cases given, in order, whatever suites they came from: the names stand as they first
appeared, and under each name is the case that was given last. Laws of merging follow from this
alone.
-/

namespace List

variable {α : Type} [BEq α] [LawfulBEq α]

/-! ## First appearances -/

theorem nodup_eraseDups : (l : List α) → l.eraseDups.Nodup
  | [] => nodup_nil
  | a :: rest => by
    rw [eraseDups_cons, nodup_cons, mem_eraseDups]
    refine ⟨?_, nodup_eraseDups (rest.filter fun b => !b == a)⟩
    simp
termination_by l => l.length
decreasing_by exact Nat.lt_succ_of_le (length_filter_le _ rest)

theorem filter_eraseDups (p : α → Bool) :
    (l : List α) → l.eraseDups.filter p = (l.filter p).eraseDups
  | [] => rfl
  | a :: rest => by
    have hrest := filter_eraseDups p (rest.filter fun b => !b == a)
    rw [eraseDups_cons]
    cases ha : p a with
    | true => rw [filter_cons_of_pos ha, filter_cons_of_pos ha, eraseDups_cons, hrest, filter_comm]
    | false =>
      have hne : ∀ b ∈ rest.filter p, (!b == a) = true := by
        intro b hb
        have hpb := of_mem_filter hb
        have hba : b ≠ a := by
          rintro rfl
          exact Bool.false_ne_true (ha.symm.trans hpb)
        simpa using hba
      rw [filter_cons_of_neg (by simp [ha]), filter_cons_of_neg (by simp [ha]), hrest, filter_comm,
        filter_eq_self.2 hne]
termination_by l => l.length
decreasing_by exact Nat.lt_succ_of_le (length_filter_le _ rest)

theorem Nodup.eraseDups_eq {l : List α} (h : l.Nodup) : l.eraseDups = l := by
  induction l with
  | nil => rfl
  | cons a rest ih =>
    obtain ⟨ha, hrest⟩ := nodup_cons.1 h
    have hne : ∀ b ∈ rest, (!b == a) = true := by
      intro b hb
      have hba : b ≠ a := fun e => ha (e ▸ hb)
      simpa using hba
    rw [eraseDups_cons, filter_eq_self.2 hne, ih hrest]

theorem eraseDups_concat_of_not_mem {l : List α} {a : α} (h : a ∉ l) :
    (l ++ [a]).eraseDups = l.eraseDups ++ [a] := by
  rw [eraseDups_append]
  simp [removeAll, h, eraseDups_cons]

theorem eraseDups_append_of_subset {l m : List α} (h : m ⊆ l) :
    (l ++ m).eraseDups = l.eraseDups := by
  have hnone : m.removeAll l = [] := by
    rw [removeAll, filter_eq_nil_iff]
    intro a ha
    simpa using h ha
  rw [eraseDups_append, hnone, eraseDups_nil, append_nil]

theorem eraseDups_append_eraseDups (l m : List α) :
    (l ++ m.eraseDups).eraseDups = (l ++ m).eraseDups := by
  rw [eraseDups_append, eraseDups_append, removeAll, filter_eraseDups,
    (nodup_eraseDups _).eraseDups_eq, removeAll]

end List

namespace Octoglyph

namespace Suite

/-- No two cases have the same name. -/
def Distinct (suite : Suite) : Prop := (suite.cases.map Case.name).Nodup

instance (suite : Suite) : Decidable suite.Distinct := List.nodupDecidable _

/-- The case that stands under a name. -/
def named? (cases : List Case) (name : Text) : Option Case :=
  cases.find? fun c => c.name = name

/-- The case that is given last under a name. -/
def last? (cases : List Case) (name : Text) : Option Case :=
  cases.findRev? fun c => c.name = name

theorem last?_append (cases more : List Case) (name : Text) :
    last? (cases ++ more) name = (last? more name).or (last? cases name) := by
  simp only [last?, List.findRev?_eq_find?_reverse, List.reverse_append, List.find?_append]

theorem last?_concat (cases : List Case) (c : Case) (name : Text) :
    last? (cases ++ [c]) name = if c.name = name then some c else last? cases name := by
  rw [last?_append]
  by_cases h : c.name = name <;> simp [last?, List.findRev?, h]

theorem named?_eq_none {cases : List Case} {name : Text} :
    named? cases name = none ↔ name ∉ cases.map Case.name := by
  simp [named?]

theorem named?_eq_last? {cases : List Case} (h : (cases.map Case.name).Nodup) (name : Text) :
    named? cases name = last? cases name := by
  induction cases with
  | nil => rfl
  | cons c rest ih =>
    obtain ⟨hc, hrest⟩ := List.nodup_cons.1 h
    have hlast : last? (c :: rest) name = (last? rest name).or (last? [c] name) :=
      last?_append [c] rest name
    rw [hlast, ← ih hrest]
    by_cases hname : c.name = name
    · subst hname
      rw [named?_eq_none.2 hc]
      simp [named?, last?, List.findRev?]
    · simp [named?, last?, List.findRev?, hname]

/-! ## One case more -/

theorem map_name_put (c : Case) (cases : List Case) :
    (put c cases).map Case.name =
      if c.name ∈ cases.map Case.name then cases.map Case.name
      else cases.map Case.name ++ [c.name] := by
  induction cases with
  | nil => rfl
  | cons d rest ih =>
    by_cases hname : d.name = c.name
    · simp [put, hname]
    · have hne : c.name ≠ d.name := fun e => hname e.symm
      rw [put, if_neg hname, List.map_cons, ih, List.map_cons]
      by_cases hmem : c.name ∈ rest.map Case.name
      · rw [if_pos hmem, if_pos (List.mem_cons_of_mem _ hmem)]
      · rw [if_neg hmem, if_neg (List.not_mem_cons_of_ne_of_not_mem hne hmem), List.cons_append]

theorem named?_put (c : Case) (cases : List Case) (name : Text) :
    named? (put c cases) name = if c.name = name then some c else named? cases name := by
  induction cases with
  | nil => by_cases hname : c.name = name <;> simp [put, named?, hname]
  | cons d rest ih =>
    unfold named? at ih ⊢
    by_cases hd : d.name = c.name
    · by_cases hname : c.name = name <;> simp [put, hd, hname]
    · rw [put, if_neg hd, List.find?_cons, ih, List.find?_cons]
      by_cases hname : d.name = name
      · have hc : c.name ≠ name := fun e => hd (hname.trans e.symm)
        simp [hname, hc]
      · simp [hname]

/-! ## All cases -/

/-- What the given cases come down to: their names in the order of first appearance, each with the
case that is given last. -/
structure Settles (given cases : List Case) : Prop where
  names_eq : cases.map Case.name = (given.map Case.name).eraseDups
  named?_eq : ∀ name, named? cases name = last? given name

namespace Settles

variable {given cases : List Case}

theorem of_distinct {suite : Suite} (h : suite.Distinct) : Settles suite.cases suite.cases :=
  ⟨h.eraseDups_eq.symm, named?_eq_last? h⟩

theorem nodup (h : Settles given cases) : (cases.map Case.name).Nodup := by
  rw [h.names_eq]
  exact List.nodup_eraseDups _

theorem last?_eq (h : Settles given cases) (name : Text) : last? cases name = last? given name := by
  rw [← named?_eq_last? h.nodup, h.named?_eq]

theorem put (h : Settles given cases) (c : Case) : Settles (given ++ [c]) (put c cases) where
  names_eq := by
    have hmem : c.name ∈ cases.map Case.name ↔ c.name ∈ given.map Case.name := by
      rw [h.names_eq, List.mem_eraseDups]
    rw [map_name_put, List.map_append, List.map_singleton]
    by_cases hname : c.name ∈ given.map Case.name
    · rw [if_pos (hmem.2 hname), h.names_eq,
        List.eraseDups_append_of_subset (List.cons_subset.2 ⟨hname, List.nil_subset _⟩)]
    · rw [if_neg (mt hmem.1 hname), h.names_eq, List.eraseDups_concat_of_not_mem hname]
  named?_eq name := by rw [named?_put, last?_concat, h.named?_eq]

theorem foldl_put (h : Settles given cases) (more : List Case) :
    Settles (given ++ more) (more.foldl (fun cases c => Suite.put c cases) cases) := by
  induction more generalizing given cases with
  | nil => rwa [List.append_nil]
  | cons c more ih =>
    have hstep := ih (h.put c)
    rwa [List.append_assoc] at hstep

theorem merge {suite : Suite} (h : Settles given suite.cases) (file : Suite) :
    Settles (given ++ file.cases) (suite.merge file).cases :=
  h.foldl_put file.cases

theorem foldl_merge {suite : Suite} (h : Settles given suite.cases) (files : List Suite) :
    Settles (given ++ files.flatMap Suite.cases) (files.foldl Suite.merge suite).cases := by
  induction files generalizing given suite with
  | nil => rwa [List.flatMap_nil, List.append_nil]
  | cons file files ih =>
    have hstep := ih (h.merge file)
    rwa [List.append_assoc] at hstep

/-- The cases are told by what they come from. -/
theorem eq_filterMap (h : Settles given cases) :
    cases = (given.map Case.name).eraseDups.filterMap (last? given) := by
  have hself : ∀ c ∈ cases, last? given c.name = some c := by
    intro c hc
    rw [← h.named?_eq, named?, List.find?_eq_some_iff_append]
    obtain ⟨front, back, rfl⟩ := List.append_of_mem hc
    refine ⟨decide_eq_true rfl, front, back, rfl, ?_⟩
    intro d hd
    have hnodup := h.nodup
    rw [List.map_append, List.map_cons] at hnodup
    have hdisjoint := List.disjoint_of_nodup_append hnodup
    have hne : d.name ≠ c.name := fun e =>
      hdisjoint (List.mem_map_of_mem hd) (e ▸ List.mem_cons_self)
    simpa using hne
  rw [← h.names_eq, List.filterMap_map]
  calc
    cases = cases.filterMap some := (List.filterMap_some).symm
    _ = cases.filterMap (last? given ∘ Case.name) :=
      List.filterMap_congr fun c hc => (hself c hc).symm

theorem unique {cases' : List Case} (h : Settles given cases) (h' : Settles given cases') :
    cases = cases' := by
  rw [h.eq_filterMap, h'.eq_filterMap]

/-- Cases that have been given already change nothing when they are given again. -/
theorem again {more : List Case} (h : Settles (given ++ more) cases) :
    Settles ((given ++ more) ++ more) cases where
  names_eq := by
    have hsubset : more.map Case.name ⊆ (given ++ more).map Case.name :=
      List.map_subset _ (List.subset_append_right given more)
    have hnames : ((given ++ more) ++ more).map Case.name =
        (given ++ more).map Case.name ++ more.map Case.name := List.map_append
    rw [h.names_eq, hnames, List.eraseDups_append_of_subset hsubset]
  named?_eq name := by
    rw [h.named?_eq, last?_append (given ++ more), last?_append, ← Option.or_assoc, Option.or_self]

/-- It makes no difference whether cases are given or what they come down to. -/
theorem of_append {front settled : List Case} (h : Settles given settled)
    (hcases : Settles (front ++ settled) cases) : Settles (front ++ given) cases where
  names_eq := by
    rw [hcases.names_eq, List.map_append, List.map_append, h.names_eq,
      List.eraseDups_append_eraseDups]
  named?_eq name := by rw [hcases.named?_eq, last?_append, last?_append, h.last?_eq]

end Settles

/-! ## The laws -/

theorem distinct_foldl_merge {start : Suite} (h : start.Distinct) (files : List Suite) :
    (files.foldl merge start).Distinct :=
  ((Settles.of_distinct h).foldl_merge files).nodup

theorem merge_merge_self {suite : Suite} (h : suite.Distinct) (file : Suite) :
    (suite.merge file).merge file = suite.merge file := by
  have honce := (Settles.of_distinct h).merge file
  exact congrArg Suite.mk ((honce.merge file).unique honce.again)

theorem merge_assoc {a b : Suite} (ha : a.Distinct) (hb : b.Distinct) (c : Suite) :
    (a.merge b).merge c = a.merge (b.merge c) := by
  have hbc := (Settles.of_distinct hb).merge c
  have hright := hbc.of_append ((Settles.of_distinct ha).merge (b.merge c))
  have hleft := ((Settles.of_distinct ha).merge b).merge c
  rw [List.append_assoc] at hleft
  exact congrArg Suite.mk (hleft.unique hright)

/-- Files are merged into a suite whose names are distinct, as they are in the empty suite and in
the built-in one; the files may repeat names. The names stay distinct, in the order in which they
first appear in the suite and then in the files, and under each stands the case that was given last.
A file merged twice in a row is merged once, and files may be merged with one another first. -/
theorem merge_keeps_last :
    (Distinct {} ∧ builtIn.Distinct) ∧
      (∀ (start : Suite) (files : List Suite), start.Distinct →
        let given := start.cases ++ files.flatMap Suite.cases
        let merged := files.foldl merge start
        merged.Distinct ∧
          merged.cases.map Case.name = (given.map Case.name).eraseDups ∧
            ∀ name, merged.cases.find? (fun c => c.name = name) =
              given.findRev? fun c => c.name = name) ∧
      (∀ (start : Suite) (before : List Suite) (file : Suite) (after : List Suite), start.Distinct →
        (before ++ file :: file :: after).foldl merge start =
          (before ++ file :: after).foldl merge start) ∧
      ∀ a b c : Suite, a.Distinct → b.Distinct → (a.merge b).merge c = a.merge (b.merge c) := by
  refine ⟨⟨by decide, by decide⟩, ?_, ?_, fun a b c ha hb => merge_assoc ha hb c⟩
  · intro start files hstart
    have hsettles := (Settles.of_distinct hstart).foldl_merge files
    exact ⟨hsettles.nodup, hsettles.names_eq, hsettles.named?_eq⟩
  · intro start before file after hstart
    have hbefore := distinct_foldl_merge hstart before
    rw [List.foldl_append, List.foldl_append, List.foldl_cons, List.foldl_cons, List.foldl_cons,
      merge_merge_self hbefore file]

/-- A file that gives one name of the built-in suite twice and has a new one: the later case stands
in the old place, and the new one at the end. -/
theorem merge_keeps_last_repeated :
    let early : Case := { name := "print".toList, program := ['4'] }
    let late : Case := { name := "print".toList, program := ['5'] }
    let new : Case := { name := ['n'], program := [] }
    let merged := builtIn.merge ⟨[early, new, late]⟩
    builtIn.Distinct ∧ merged.Distinct ∧
      merged.cases.map Case.name = builtIn.cases.map Case.name ++ [['n']] ∧
        merged.cases.find? (fun c => c.name = "print".toList) = some late ∧
          merged.merge ⟨[early, new, late]⟩ = merged := by
  intro early late new merged
  obtain ⟨⟨-, hbuiltIn⟩, hmerged, htwice, -⟩ := merge_keeps_last
  obtain ⟨hdistinct, hnames, hlast⟩ := hmerged builtIn [⟨[early, new, late]⟩] hbuiltIn
  refine ⟨hbuiltIn, hdistinct, hnames.trans (by decide), ?_, ?_⟩
  · exact (hlast _).trans (by decide)
  · exact htwice builtIn [] ⟨[early, new, late]⟩ [] hbuiltIn

end Suite

end Octoglyph
