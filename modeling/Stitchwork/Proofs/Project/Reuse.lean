/- # Stitchwork.Proofs.Project.Reuse — what is left of a document when it is used again.

A document can be packaged and compiled any number of times.  Each operation gives a text or an error, and
leaves a document: it may have got an identifier and a version, and allowed values of its configs may have
been used up.  Nothing else changes, so a document whose configs allow everything can be used again and
again.  One whose configs list allowed values cannot, but for lists that hold nothing but the empty text and
that no compilation gets to see.
-/
import Mathlib.Data.List.Forall2
import Stitchwork.Project.Build
import Stitchwork.Proofs.Markup.Writer
import Stitchwork.Proofs.Pattern.Packages
import Stitchwork.Proofs.Project.Refusal
import Stitchwork.Proofs.Table
import Stitchwork.Proofs.Text.Pieces

namespace Stitchwork.Project

open Stitchwork.Formula Stitchwork.Markup Stitchwork.Pattern

variable {d : Document} {cs : List Config} {c : Config} {text : String} {n : Nat}

/-! ## Operations -/

/-- What is done with a document that has been read. -/
inductive Operation where
  | package
  | compile (choices : Choices) (name : String)

/-- What an operation gives, and the document that it leaves. -/
def Operation.run : Operation → Document → StateM Nat (Except Error String × Document)
  | .package, d => Pattern.package false d
  | .compile choices name, d => do
    let compiled ← Project.compile .fresh choices name d
    return (compiled.text, compiled.document)

/-- The document that operations leave, done one behind the other. -/
def leaveAll : List Operation → Document → StateM Nat Document
  | [], d => return d
  | op :: ops, d => do
    let (_, left) ← op.run d
    leaveAll ops left

/-- What an operation gives if `n` identifiers have been drawn. -/
def Operation.answer (op : Operation) (d : Document) (n : Nat) : Except Error String :=
  ((op.run d).run n).1.1

/-- The document with the identifier and the version of another. -/
def stampedAs (left d : Document) : Document :=
  { d with uniqueId := left.uniqueId, version := left.version }

/-- An identifier and a version are those of the document, or have been filled in. -/
structure Stamped (d left : Document) : Prop where
  uniqueId : left.uniqueId = d.uniqueId ∨
    (d.uniqueId.getD "").isEmpty ∧ ∃ n, left.uniqueId = some (identifier n)
  version : left.version = d.version ∨ d.version = none ∧ left.version = some Version.first

/-- Using the document does not use it up: whatever has been done with it, an operation gives what it gives
for the document as it was read, but for the identifier and the version that have been filled in. -/
def Repeatable (d : Document) : Prop :=
  ∀ (ops : List Operation) (op : Operation) (n m : Nat) (left : Document),
    (leaveAll ops d).run n = (left, m) →
      op.answer left m = op.answer (stampedAs left d) m ∧ Stamped d left

/-! ## What operations leave -/

/-- What can be left of a config: its allowed values up to some point may have been used up, if they can be
gone through once only. -/
def Leaves (c left : Config) : Prop :=
  ∃ rest, rest <:+ c.allowed.values ∧ (c.allowed.once = false → rest = c.allowed.values) ∧
    left = { c with allowed := { c.allowed with values := rest } }

theorem Leaves.refl (c : Config) : Leaves c c := ⟨_, List.suffix_refl _, fun _ => rfl, rfl⟩

theorem Leaves.trans {a b : Config} (hab : Leaves a b) (hbc : Leaves b c) : Leaves a c := by
  obtain ⟨s, hs, hsOnce, rfl⟩ := hab
  obtain ⟨t, ht, htOnce, rfl⟩ := hbc
  exact ⟨t, ht.trans hs, fun h => (htOnce h).trans (hsOnce h), rfl⟩

theorem after_suffix (v : String) (ws : List String) : Allowed.after v ws <:+ ws := by
  induction ws with
  | nil => exact List.suffix_refl _
  | cons w ws ih =>
    rw [Allowed.after]
    split
    · exact List.suffix_cons w ws
    · exact ih.trans (List.suffix_cons w ws)

/-- Looking for a value leaves the values behind it. -/
theorem leaves_find (c : Config) (v : String) : Leaves c { c with allowed := (c.allowed.find v).2 } := by
  cases honce : c.allowed.once with
  | false => simpa [Allowed.find, honce] using Leaves.refl c
  | true => exact ⟨_, after_suffix v _, by simp [honce], by simp [Allowed.find, honce]⟩

/-- Writing a config leaves no values that can be gone through once only. -/
theorem leaves_toElement (c : Config) : Leaves c c.toElement.2 := by
  cases honce : c.allowed.once with
  | false => simpa [Config.toElement, Allowed.write, honce] using Leaves.refl c
  | true => exact ⟨[], List.nil_suffix, by simp [honce], by simp [Config.toElement, Allowed.write, honce]⟩

theorem leaves_configValue (chosen : Table String) (globals : Scope) (c : Config) :
    Leaves c (configValue chosen globals c).2 := by
  rw [configValue]
  split
  · next s _ =>
    split
    · exact leaves_find c s
    · exact .refl c
  · exact .refl c

theorem forall₂_leaves_refl (cs : List Config) : List.Forall₂ Leaves cs cs := by
  induction cs with
  | nil => exact .nil
  | cons c cs ih => exact .cons (.refl c) ih

theorem forall₂_leaves_trans {as bs : List Config} (hab : List.Forall₂ Leaves as bs) (hbc : List.Forall₂ Leaves bs cs) :
    List.Forall₂ Leaves as cs := by
  induction hab generalizing cs with
  | nil => exact hbc
  | cons h _ ih =>
    cases hbc with
    | cons h' hrest => exact .cons (h.trans h') (ih hrest)

theorem forall₂_leaves_configure (chosen : Table String) (globals : Scope) (cs : List Config) :
    List.Forall₂ Leaves cs (configure chosen globals cs).left := by
  induction cs generalizing globals with
  | nil => exact .nil
  | cons c cs ih =>
    have hc := leaves_configValue chosen globals c
    rw [configure]
    split
    · next e left h =>
      rw [h] at hc
      exact .cons hc (forall₂_leaves_refl cs)
    · next v left h =>
      rw [h] at hc
      dsimp only
      split
      · exact .cons hc (forall₂_leaves_refl cs)
      · exact .cons hc (ih _)

/-- What operations can leave of a document. -/
structure LeftOver (d left : Document) : Prop where
  same : left = { stampedAs left d with configs := left.configs }
  configs : List.Forall₂ Leaves d.configs left.configs
  stamped : Stamped d left

theorem LeftOver.refl (d : Document) : LeftOver d d where
  same := rfl
  configs := forall₂_leaves_refl d.configs
  stamped := ⟨.inl rfl, .inl rfl⟩

theorem Stamped.trans {a b c : Document} (hab : Stamped a b) (hbc : Stamped b c) : Stamped a c where
  uniqueId := by
    rcases hbc.uniqueId with h | ⟨hempty, h⟩
    · rw [h]
      exact hab.uniqueId
    · rcases hab.uniqueId with h' | ⟨hempty', -⟩
      · exact .inr ⟨h' ▸ hempty, h⟩
      · exact .inr ⟨hempty', h⟩
  version := by
    rcases hbc.version with h | ⟨hnone, h⟩
    · rw [h]
      exact hab.version
    · rcases hab.version with h' | ⟨hnone', -⟩
      · exact .inr ⟨h' ▸ hnone, h⟩
      · exact .inr ⟨hnone', h⟩

theorem LeftOver.trans {a b c : Document} (hab : LeftOver a b) (hbc : LeftOver b c) : LeftOver a c where
  same := by
    have h := hbc.same
    rw [hab.same] at h
    exact h
  configs := forall₂_leaves_trans hab.configs hbc.configs
  stamped := hab.stamped.trans hbc.stamped

/-- A document whose configs have been gone through is a left-over. -/
theorem leftOver_withConfigs (h : List.Forall₂ Leaves d.configs cs) : LeftOver d { d with configs := cs } where
  same := rfl
  configs := h
  stamped := ⟨.inl rfl, .inl rfl⟩

theorem leftOver_stamp (d : Document) (n : Nat) : LeftOver d (stamp d n) := by
  have hversion : (d.version <|> some Version.first) = d.version ∨
      d.version = none ∧ (d.version <|> some Version.first) = some Version.first := by
    cases d.version with
    | none => exact .inr ⟨rfl, rfl⟩
    | some v => exact .inl rfl
  by_cases hid : (d.uniqueId.getD "").isEmpty
  · have heq : stamp d n = { d with
        uniqueId := some (identifier (n + 1)), version := d.version <|> some Version.first } := by
      rw [stamp, Document.withUniqueId, if_pos hid]
      rfl
    rw [heq]
    exact ⟨rfl, forall₂_leaves_refl _, .inr ⟨hid, n + 1, rfl⟩, hversion⟩
  · have heq : stamp d n = { d with version := d.version <|> some Version.first } := by
      rw [stamp, Document.withUniqueId, if_neg hid]
      rfl
    rw [heq]
    exact ⟨rfl, forall₂_leaves_refl _, .inl rfl, hversion⟩

theorem forall₂_leaves_toElement (cs : List Config) :
    List.Forall₂ Leaves cs ((cs.map Config.toElement).map (·.2)) := by
  induction cs with
  | nil => exact .nil
  | cons c cs ih => exact .cons (leaves_toElement c) ih

theorem leftOver_packageTree (d : Document) : LeftOver d d.packageTree.2 := by
  rw [Document.packageTree]
  split
  · exact .refl d
  · dsimp only
    split
    · exact leftOver_withConfigs (forall₂_leaves_toElement d.configs)
    · exact leftOver_withConfigs (forall₂_leaves_toElement d.configs)

theorem forall₂_leaves_build (d : Document) (choices : Choices) (name id : String) :
    List.Forall₂ Leaves d.configs (build d choices name id).left := by
  have h := forall₂_leaves_configure choices.configs Table.empty d.configs
  rw [build]
  split
  · exact forall₂_leaves_refl d.configs
  · dsimp only
    split
    · exact h
    · split
      · exact h
      · exact h

/-- One operation. -/
theorem leftOver_run (op : Operation) (d : Document) (n : Nat) :
    LeftOver d ((op.run d).run n).1.2 := by
  cases op with
  | package =>
    rw [Operation.run, package_run]
    exact (leftOver_stamp d n).trans (leftOver_packageTree _)
  | compile choices name =>
    by_cases hpkg : (d.pkgVersion.getD "").isEmpty
    · simp only [Operation.run, compile, if_pos hpkg]
      exact .refl d
    · simp only [Operation.run, compile, if_neg hpkg]
      exact leftOver_withConfigs (forall₂_leaves_build d choices name _)

/-- Any number of operations. -/
theorem leftOver_leaveAll (ops : List Operation) (d : Document) (n : Nat) :
    LeftOver d ((leaveAll ops d).run n).1 := by
  induction ops generalizing d n with
  | nil => exact .refl d
  | cons op ops ih => exact (leftOver_run op d n).trans (ih _ _)

/-! ## What operations read -/

theorem packageTree_fst (d : Document) : d.packageTree.1 = (do
    let leading ← d.leadingElements
    let trailing ← d.trailingElements
    .ok (d.packageRoot.append
      ((leading ++ d.configs.map (·.toElement.1) ++ trailing).map Element.toNode))) := by
  rw [Document.packageTree]
  cases d.leadingElements with
  | error e => rfl
  | ok leading =>
    cases d.trailingElements with
    | error e => rfl
    | ok trailing =>
      dsimp only
      rw [List.map_map]
      rfl

theorem stamp_withConfigs (d : Document) (cs : List Config) (n : Nat) :
    stamp { d with configs := cs } n = { stamp d n with configs := cs } := by
  by_cases hid : (d.uniqueId.getD "").isEmpty
  · simp only [stamp, Document.withUniqueId, if_pos hid]
    rfl
  · simp only [stamp, Document.withUniqueId, if_neg hid]
    rfl

/-- The package of a document, by the elements of its configs. -/
def packageWith (d : Document) (n : Nat) (configs : List Element) : Except Error String := do
  let leading ← d.leadingElements
  let trailing ← d.trailingElements
  .ok (writeDocument ((stamp d n).packageRoot.append
    ((leading ++ configs ++ trailing).map Element.toNode)))

/-- Packaging reads the configs by their elements only. -/
theorem answer_package (d : Document) (cs : List Config) (n : Nat) :
    Operation.package.answer { d with configs := cs } n =
      packageWith d n (cs.map (·.toElement.1)) := by
  rw [Operation.answer, Operation.run, package_run, stamp_withConfigs]
  dsimp only
  have hsame := (leftOver_stamp d n).same
  rw [packageTree_fst, packageWith]
  have hleading : Document.leadingElements { stamp d n with configs := cs } = d.leadingElements := by
    rw [hsame]
    rfl
  have htrailing : Document.trailingElements { stamp d n with configs := cs } = d.trailingElements := by
    rw [hsame]
    rfl
  rw [hleading, htrailing]
  cases d.leadingElements with
  | error e => rfl
  | ok leading =>
    cases d.trailingElements with
    | error e => rfl
    | ok trailing => rfl

/-- Expanding does not look at the configs: their values are among the global values. -/
theorem parts_withConfigs (d : Document) (cs : List Config) (globals : Scope) :
    parts ⟨{ d with configs := cs }, globals⟩ = parts ⟨d, globals⟩ := by
  have halike : Alike ⟨d, globals⟩ ⟨{ d with configs := cs }, globals⟩ := ⟨rfl, rfl, rfl, rfl, rfl⟩
  rw [parts, parts, chartExpansion_alike halike, componentExpansion_alike halike]

/-- The part of a compilation behind the configs. -/
def finish (d : Document) (choices : Choices) (name id : String) (pattern : Element)
    (configs : List Element) (globals : Scope) : Except Error Expansion :=
  match evaluateValues globals d.values with
  | (_, .error e) => .error e
  | (globals, .ok ()) => do
    let colors ← d.colors.mapM (colorElement choices.colors)
    let content ← parts ⟨d, globals⟩
    let head := (projectRoot name id).append
      ((imageElements d ++ [pattern] ++ configs ++ colors).map Element.toNode)
    .ok (content.wrap head)

/-- What becomes of configs: their elements and the global values, or an error. -/
def outcome (chosen : Table String) (globals : Scope) (cs : List Config) :
    Except Error (List Element × Scope) :=
  (configure chosen globals cs).elements.map (·, (configure chosen globals cs).globals)

theorem outcome_cons (chosen : Table String) (globals : Scope) (c : Config) (cs : List Config) :
    outcome chosen globals (c :: cs) = (do
      let v ← (configValue chosen globals c).1
      let e ← configElement c v
      let (es, globals) ← outcome chosen (globals.insert c.name v) cs
      .ok (e :: es, globals)) := by
  rw [outcome, configure]
  rcases configValue chosen globals c with ⟨r, left⟩
  cases r with
  | error e => rfl
  | ok v =>
    dsimp only [bind, Except.bind]
    rw [outcome]
    cases configElement c v with
    | error e => rfl
    | ok element =>
      dsimp only
      cases (configure chosen (globals.insert c.name v) cs).elements with
      | error e => rfl
      | ok es => rfl

/-- The project of a document, by what has become of its configs. -/
def projectWith (d : Document) (choices : Choices) (name id : String)
    (configured : Except Error (List Element × Scope)) : Except Error String := do
  let pattern ← patternElement d
  let (configs, globals) ← configured
  finish d choices name id pattern configs globals >>= write

theorem build_tree (d : Document) (cs : List Config) (choices : Choices) (name id : String) :
    (build { d with configs := cs } choices name id).tree >>= write =
      projectWith d choices name id (outcome choices.configs Table.empty cs) := by
  have hpattern : patternElement { d with configs := cs } = patternElement d := rfl
  rw [build, projectWith, outcome, hpattern]
  cases patternElement d with
  | error e => rfl
  | ok pattern =>
    dsimp only [bind, Except.bind]
    cases (configure choices.configs Table.empty cs).elements with
    | error e => rfl
    | ok configs =>
      dsimp only [Except.map]
      rw [finish]
      cases evaluateValues (configure choices.configs Table.empty cs).globals d.values with
      | mk globals r =>
        cases r with
        | error e => rfl
        | ok u =>
          dsimp only
          rw [parts_withConfigs]
          rfl

/-- Compiling reads the configs by what becomes of them only. -/
theorem answer_compile (d : Document) (cs : List Config) (choices : Choices) (name : String)
    (n : Nat) : (Operation.compile choices name).answer { d with configs := cs } n =
      if (d.pkgVersion.getD "").isEmpty then .error .notPackaged
      else projectWith d choices name (identifier (n + 1))
        (outcome choices.configs Table.empty cs) := by
  by_cases hpkg : (d.pkgVersion.getD "").isEmpty
  · simp only [Operation.answer, Operation.run, compile, if_pos hpkg]
    rfl
  · rw [if_neg hpkg, ← build_tree]
    simp only [Operation.answer, Operation.run, compile, if_neg hpkg]
    rfl

/-! ## Documents that are not used up -/

/-- The allowed values of a config, if they can be gone through once only, are the empty text alone. -/
def Blank (c : Config) : Prop := c.allowed.once → c.allowed.values = [""]

/-- No config whose allowed values can be gone through once only is reached with the empty text chosen for
it: one in front of it fails. -/
def Unseen (chosen : Table String) (globals : Scope) (cs : List Config) : Prop :=
  ∀ before c after, cs = before ++ c :: after → c.allowed.once → chosen.get? c.name = some "" →
    ∀ r, outcome chosen globals before ≠ .ok r

/-- The configs of the document allow everything, or nothing but an empty text that no compilation gets to
see. -/
structure Reusable (d : Document) : Prop where
  blank : ∀ c ∈ d.configs, Blank c
  unseen : ¬(d.pkgVersion.getD "").isEmpty → ∀ chosen, Unseen chosen Table.empty d.configs

/-- What is left of a config with blank allowed values is written in the same way. -/
theorem toElement_of_leaves {left : Config} (h : Leaves c left) (hc : Blank c) : left.toElement.1 = c.toElement.1 := by
  obtain ⟨rest, hrest, honce, rfl⟩ := h
  cases ho : c.allowed.once with
  | false => rw [honce ho]
  | true =>
    rw [hc ho] at hrest
    have hjoin : Text.join "," rest = Text.join "," c.allowed.values := by
      rw [hc ho]
      rcases List.suffix_cons_iff.1 hrest with rfl | h
      · rfl
      · rw [List.suffix_nil.1 h]
        rfl
    have hgiven : Allowed.given { c.allowed with values := rest } = c.allowed.given := by
      simp [Allowed.given, ho]
    simp only [Config.toElement, Allowed.write, hjoin, hgiven]

theorem map_toElement_of_leaves {ls : List Config} (h : List.Forall₂ Leaves cs ls) (hblank : ∀ c ∈ cs, Blank c) :
    ls.map (·.toElement.1) = cs.map (·.toElement.1) := by
  induction h with
  | nil => rfl
  | cons hc _ ih =>
    rw [List.map_cons, List.map_cons, toElement_of_leaves hc (hblank _ (by simp)),
      ih fun c hc => hblank c (List.mem_cons_of_mem _ hc)]

/-- A config of which something has been used up has the value that it had, unless the empty text is chosen
for it. -/
theorem configValue_of_leaves {left : Config} (h : Leaves c left) (hc : Blank c) (chosen : Table String)
    (globals : Scope) (hunseen : c.allowed.once → chosen.get? c.name ≠ some "") :
    (configValue chosen globals left).1 = (configValue chosen globals c).1 := by
  obtain ⟨rest, hrest, honce, rfl⟩ := h
  cases ho : c.allowed.once with
  | false => rw [honce ho]
  | true =>
    rw [configValue, configValue]
    cases hs : chosen.get? c.name with
    | none => rfl
    | some s =>
      have hne : s ≠ "" := by
        rintro rfl
        exact hunseen ho hs
      have hnot : s ∉ rest := by
        intro hmem
        have hmem' := hrest.subset hmem
        rw [hc ho, List.mem_singleton] at hmem'
        exact hne hmem'
      simp [Allowed.given, Allowed.find, ho, hc ho, hnot, hne]

/-- Configs of which something has been used up become what they would have become. -/
theorem outcome_of_leaves {ls : List Config} (h : List.Forall₂ Leaves cs ls) (hblank : ∀ c ∈ cs, Blank c)
    (chosen : Table String) (globals : Scope) (hunseen : Unseen chosen globals cs) :
    outcome chosen globals ls = outcome chosen globals cs := by
  induction h generalizing globals with
  | nil => rfl
  | @cons c l cs ls hcl _ ih =>
    have hvalue : (configValue chosen globals l).1 = (configValue chosen globals c).1 :=
      configValue_of_leaves hcl (hblank c (by simp)) chosen globals
        fun ho hs => hunseen [] c cs rfl ho hs _ rfl
    have hname : l.name = c.name := by
      obtain ⟨_, _, _, rfl⟩ := hcl
      rfl
    have helement : configElement l = configElement c := by
      obtain ⟨_, _, _, rfl⟩ := hcl
      rfl
    rw [outcome_cons, outcome_cons, hvalue, hname, helement]
    cases hv : (configValue chosen globals c).1 with
    | error e => rfl
    | ok v =>
      cases he : configElement c v with
      | error e => simp only [bind, Except.bind, he]
      | ok element =>
        -- what is reached behind `c` would be reached with `c` in front
        have hrest : Unseen chosen (globals.insert c.name v) cs := by
          rintro before c' after rfl ho hs r hr
          refine hunseen (c :: before) c' after rfl ho hs (element :: r.1, r.2) ?_
          rw [outcome_cons, hv]
          simp only [bind, Except.bind, he, hr]
        simp only [bind, Except.bind, he,
          ih (fun c' hc' => hblank c' (List.mem_cons_of_mem _ hc')) _ hrest]

/-- A document whose configs are blank and unseen is not used up. -/
theorem Reusable.repeatable (h : Reusable d) : Repeatable d := by
  intro ops op n m left hrun
  have hleft : LeftOver d left := by
    have hall := leftOver_leaveAll ops d n
    rwa [hrun] at hall
  refine ⟨?_, hleft.stamped⟩
  have hsame := hleft.same
  have hconfigs : List.Forall₂ Leaves (stampedAs left d).configs left.configs := hleft.configs
  cases op with
  | package =>
    have hfresh := answer_package (stampedAs left d) (stampedAs left d).configs m
    rw [hsame, answer_package, map_toElement_of_leaves hconfigs h.blank, ← hfresh]
    rfl
  | compile choices name =>
    have hfresh := answer_compile (stampedAs left d) (stampedAs left d).configs choices name m
    rw [hsame, answer_compile]
    refine Eq.trans ?_ hfresh.symm
    split
    · rfl
    · next hpkg =>
      rw [outcome_of_leaves hconfigs h.blank choices.configs Table.empty
        (h.unseen hpkg choices.configs)]

/-! ## Documents that are used up by packaging -/

/-- The attributes of a config in front of its allowed values. -/
def frontAttrs (c : Config) : List (String × String) :=
  [("name", c.name), ("value", c.value), ("required", boolText c.required)]

/-- The attributes of a config behind its allowed values. -/
def backAttrs (c : Config) : List (String × String) :=
  attrIfGiven "title" c.title ++ attrIfGiven "description" c.description

theorem keys_attrIfGiven (k : String) (v : Option String) :
    ((attrIfGiven k v).map (·.1)).Sublist [k] := by
  cases v with
  | none => exact List.nil_sublist _
  | some s =>
    rw [attrIfGiven]
    split
    · exact List.nil_sublist _
    · exact List.Sublist.refl _

theorem entries_toElement_config (hc : c.allowed.given) :
    c.toElement.1.attrs.entries =
      frontAttrs c ++ ("allowed_values", Text.join "," c.allowed.values) :: backAttrs c := by
  have hnodup : ((frontAttrs c ++ [("allowed_values", Text.join "," c.allowed.values)] ++
      backAttrs c).map (·.1)).Nodup := by
    have hsub : ((frontAttrs c ++ [("allowed_values", Text.join "," c.allowed.values)] ++
        backAttrs c).map (·.1)).Sublist
        ["name", "value", "required", "allowed_values", "title", "description"] := by
      simp only [List.map_append, backAttrs]
      exact List.Sublist.append (List.Sublist.refl _)
        (List.Sublist.append (keys_attrIfGiven _ _) (keys_attrIfGiven _ _))
    exact hsub.nodup (by decide)
  have hattrs : c.toElement.1.attrs = Table.ofList (frontAttrs c ++
      [("allowed_values", Text.join "," c.allowed.values)] ++ backAttrs c) := by
    simp only [Config.toElement, Allowed.write, hc, if_true, element, frontAttrs, backAttrs,
      List.append_assoc]
  rw [hattrs, Table.entries_ofList_of_nodup hnodup, List.append_assoc, List.singleton_append]

/-- How long a config is when it is written, but for its allowed values. -/
def fixedLength (c : Config) : Nat :=
  (writeHead Kind.config.tag ⟨frontAttrs c ++ backAttrs c⟩).length + 20

theorem length_writeAttr_allowed (t : String) :
    (writeAttr ("allowed_values", t)).length = 18 + (escape t.toList).length := by
  have hname : "allowed_values".toList.length = 14 := by decide
  have hopen : "=\"".toList.length = 2 := by decide
  have hclose : "\"".toList.length = 1 := by decide
  simp only [writeAttr, List.length_cons, List.length_append]
  omega

theorem length_write_config (hc : c.allowed.given) :
    (writeNode c.toElement.1.toNode).length =
      fixedLength c + (escape (Text.join "," c.allowed.values).toList).length := by
  have hnode : writeNode c.toElement.1.toNode =
      writeHead Kind.config.tag c.toElement.1.attrs ++ ['/', '>'] := rfl
  rw [hnode, fixedLength, writeHead, writeHead, entries_toElement_config hc]
  simp only [List.flatMap_append, List.flatMap_cons, List.length_append, List.length_cons,
    List.length_nil, length_writeAttr_allowed]
  omega

/-- A config that has been written is written no longer than before, and just as long only if its allowed
values were written as the empty text. -/
theorem length_write_left (c : Config) :
    (writeNode c.toElement.2.toElement.1.toNode).length ≤ (writeNode c.toElement.1.toNode).length ∧
    ((writeNode c.toElement.2.toElement.1.toNode).length = (writeNode c.toElement.1.toNode).length →
      c.allowed.once → Text.join "," c.allowed.values = "") := by
  cases ho : c.allowed.once with
  | false =>
    have hsame : c.toElement.2 = c := by simp [Config.toElement, Allowed.write, ho]
    rw [hsame]
    exact ⟨Nat.le_refl _, fun _ h => by cases h⟩
  | true =>
    have hgiven : c.allowed.given := by simp [Allowed.given, ho]
    have hleft : c.toElement.2 = { c with allowed := { c.allowed with values := [] } } := by
      simp [Config.toElement, Allowed.write, ho]
    have hshort : (writeNode c.toElement.2.toElement.1.toNode).length = fixedLength c := by
      rw [hleft, length_write_config (by simp [Allowed.given, ho])]
      rfl
    rw [hshort, length_write_config hgiven]
    refine ⟨Nat.le_add_right _ _, fun heq _ => ?_⟩
    have hzero : (escape (Text.join "," c.allowed.values).toList).length = 0 := by omega
    exact String.toList_eq_nil_iff.1 (escape_eq_nil (List.length_eq_zero_iff.1 hzero))

/-- Nodes that are written at most as long as others, and as long as those together, are each as long. -/
theorem length_writeNodes_map {α : Type} {f g : α → Node} (hle : ∀ x, (writeNode (f x)).length ≤ (writeNode (g x)).length)
    (xs : List α) : (writeNodes (xs.map f)).length ≤ (writeNodes (xs.map g)).length ∧
      ((writeNodes (xs.map f)).length = (writeNodes (xs.map g)).length →
        ∀ x ∈ xs, (writeNode (f x)).length = (writeNode (g x)).length) := by
  induction xs with
  | nil => exact ⟨Nat.le_refl _, fun _ x hx => by cases hx⟩
  | cons y ys ih =>
    have hy := hle y
    simp only [List.map_cons, writeNodes_cons, List.length_append]
    refine ⟨by omega, fun hsum x hx => ?_⟩
    rcases List.mem_cons.1 hx with rfl | hx
    · omega
    · exact ih.2 (by omega) x hx

/-- If the configs together are as long as before, each is as long as before. -/
theorem length_eq_of_writeNodes_eq
    (h : writeNodes (cs.map fun c => c.toElement.2.toElement.1.toNode) =
      writeNodes (cs.map fun c => c.toElement.1.toNode)) :
    ∀ c ∈ cs, (writeNode c.toElement.2.toElement.1.toNode).length =
      (writeNode c.toElement.1.toNode).length := by
  exact (length_writeNodes_map (fun c => (length_write_left c).1) cs).2 (congrArg List.length h)

/-- Texts that are joined to the empty text are one empty text, if there are any. -/
theorem eq_of_join_eq_empty {ws : List String} (hne : ws ≠ []) (h : Text.join "," ws = "") :
    ws = [""] := by
  have hlist := congrArg String.toList h
  rw [Text.join, String.toList_ofList] at hlist
  cases ws with
  | nil => exact absurd rfl hne
  | cons w ws =>
    cases ws with
    | nil =>
      have hw : w.toList = [] := by simpa using hlist
      rw [String.toList_eq_nil_iff.1 hw]
    | cons w' ws => simp [List.intercalate] at hlist

/-- What packaging leaves of a document that it can package. -/
theorem packageTree_snd {tree : Element} (h : d.packageTree.1 = .ok tree) :
    d.packageTree.2 = { d with configs := d.configs.map (·.toElement.2) } := by
  rw [Document.packageTree] at h ⊢
  cases hl : d.leadingElements with
  | error e => simp [hl] at h
  | ok leading =>
    cases ht : d.trailingElements with
    | error e => simp [hl, ht] at h
    | ok trailing => simp [Function.comp_def]

/-- Two packages of one document have the same text only if the configs have. -/
theorem packageWith_inj {es fs : List Element} (hes : packageWith d n es = .ok text)
    (hfs : packageWith d n fs = .ok text) (hlen : es.length = fs.length) :
    writeNodes (es.map Element.toNode) = writeNodes (fs.map Element.toNode) := by
  obtain ⟨leading, hl, hes⟩ := bind_eq_ok.1 hes
  obtain ⟨trailing, ht, hes⟩ := bind_eq_ok.1 hes
  rw [packageWith, hl, ht] at hfs
  have htext := Except.ok.inj (hes.trans hfs.symm)
  simp only [List.map_append] at htext
  exact writeNodes_eq_of_writeDocument_eq rfl (by simpa using hlen) htext

/-- A document that has been packaged, as it is left. -/
theorem leave_package (htext : Operation.package.answer d n = .ok text) :
    ∃ m, (leaveAll [.package] d).run n =
      ({ stamp d n with configs := d.configs.map (·.toElement.2) }, m) := by
  have htree : ∃ tree, (stamp d n).packageTree.1 = .ok tree := by
    rw [Operation.answer, Operation.run, package_run] at htext
    cases h : (stamp d n).packageTree.1 with
    | error e => rw [h] at htext; cases htext
    | ok tree => exact ⟨tree, rfl⟩
  obtain ⟨tree, htree⟩ := htree
  have hconfigs := congrArg Document.configs (stamp_withConfigs d d.configs n)
  have hleft : (leaveAll [.package] d).run n =
      ((stamp d n).packageTree.2, (d.withUniqueId.run n).2) := rfl
  refine ⟨(d.withUniqueId.run n).2, ?_⟩
  rw [hleft, packageTree_snd htree]
  exact congrArg (fun cs => ({ stamp d n with configs := cs.map fun c => (Config.toElement c).2 }, _)) hconfigs

theorem stampedAs_stamp (d : Document) (n : Nat) (cs : List Config) :
    stampedAs { stamp d n with configs := cs } d = { stamp d n with configs := d.configs } := by
  rw [(leftOver_stamp d n).same]
  rfl

/-- A document that can be packaged has definitions that can be written. -/
theorem elements_of_package (htext : Operation.package.answer d n = .ok text) :
    ∃ leading trailing, (stamp d n).leadingElements = .ok leading ∧
      (stamp d n).trailingElements = .ok trailing := by
  have h := answer_package d d.configs n
  rw [htext] at h
  obtain ⟨leading, hleading, h⟩ := bind_eq_ok.1 h.symm
  obtain ⟨trailing, htrailing, -⟩ := bind_eq_ok.1 h
  rw [(leftOver_stamp d n).same]
  exact ⟨leading, trailing, hleading, htrailing⟩

/-- A document that can be packaged, and that is not used up by it, writes its allowed values as the empty
text. -/
theorem join_eq_empty_of_repeatable (htext : Operation.package.answer d n = .ok text) (hrepeat : Repeatable d) :
    ∀ c ∈ d.configs, c.allowed.once → Text.join "," c.allowed.values = "" := by
  obtain ⟨m, hrun⟩ := leave_package htext
  have hagain := (hrepeat [.package] .package n m _ hrun).1
  rw [stampedAs_stamp, answer_package, answer_package] at hagain
  obtain ⟨leading, trailing, hleading, htrailing⟩ := elements_of_package htext
  have hfirst : ∃ text, packageWith (stamp d n) m (d.configs.map (·.toElement.1)) = .ok text :=
    ⟨_, by rw [packageWith, hleading, htrailing]; rfl⟩
  obtain ⟨text', hfirst⟩ := hfirst
  have hnodes := packageWith_inj (hagain.trans hfirst) hfirst (by simp)
  simp only [List.map_map] at hnodes
  intro c hc honce
  exact (length_write_left c).2 (length_eq_of_writeNodes_eq hnodes c hc) honce

/-! ## Documents that are used up by compiling -/

/-- A config that has been written refuses every choice. -/
theorem outcome_written (honce : c.allowed.once) {chosen : Table String} {s : String} (hs : chosen.get? c.name = some s)
    (globals : Scope) (rest : List Config) :
    outcome chosen globals (c.toElement.2 :: rest) = .error (.notAllowed s c.name) := by
  have hleft : c.toElement.2 = { c with allowed := { c.allowed with values := [] } } := by
    simp [Config.toElement, Allowed.write, honce]
  have hvalue : (configValue chosen globals c.toElement.2).1 = .error (.notAllowed s c.name) := by
    rw [hleft, configValue]
    dsimp only
    rw [hs]
    simp [Allowed.given, Allowed.find, honce]
  rw [outcome_cons, hvalue]
  rfl

/-- Once configs have been written, a choice of the empty text that would have been looked at is refused,
here or further in front. -/
theorem outcome_written_refuses {chosen : Table String} {globals : Scope} {before : List Config} (after : List Config)
    {r : List Element × Scope} (hblank : ∀ b ∈ before, Blank b) (honce : c.allowed.once)
    (hs : chosen.get? c.name = some "") (hok : outcome chosen globals before = .ok r) :
    ∃ k, outcome chosen globals ((before ++ c :: after).map (·.toElement.2)) =
      .error (.notAllowed "" k) := by
  induction before generalizing globals r with
  | nil => exact ⟨c.name, outcome_written honce hs globals _⟩
  | cons b before ih =>
    by_cases hb : b.allowed.once ∧ chosen.get? b.name = some ""
    · exact ⟨b.name, outcome_written hb.1 hb.2 globals _⟩
    · have hvalue := configValue_of_leaves (leaves_toElement b) (hblank b (by simp)) chosen globals
        fun ho hs => hb ⟨ho, hs⟩
      rw [outcome_cons] at hok
      obtain ⟨v, hv, hok⟩ := bind_eq_ok.1 hok
      obtain ⟨e, he, hok⟩ := bind_eq_ok.1 hok
      obtain ⟨r', hr', -⟩ := bind_eq_ok.1 hok
      obtain ⟨k, hk⟩ := ih (fun b' hb' => hblank b' (List.mem_cons_of_mem _ hb')) hr'
      refine ⟨k, ?_⟩
      have hname : b.toElement.2.name = b.name := rfl
      have helement : configElement b.toElement.2 v = .ok e := he
      rw [List.cons_append, List.map_cons, outcome_cons, hvalue, hv, hname]
      simp only [bind, Except.bind, helement, hk]

/-- The allowed values of a config that has been read: those of an attribute, at least one and to be gone
through once only, or none. -/
def AsRead (c : Config) : Prop :=
  (c.allowed.once = true ∧ c.allowed.values ≠ []) ∨ c.allowed = .unrestricted

theorem configValue_ne_refusal (hread : AsRead c) (hblank : Blank c) (chosen : Table String) (globals : Scope)
    (k : String) : (configValue chosen globals c).1 ≠ .error (.notAllowed "" k) := by
  rw [configValue]
  cases hs : chosen.get? c.name with
  | none =>
    have htext := noRefusal_expandText globals c.value "" k
    cases he : expandText globals c.value with
    | error e =>
      rw [he] at htext
      exact fun h => htext (congrArg Except.error (Except.error.inj h))
    | ok t => exact nofun
  | some s =>
    rcases hread with ⟨honce, -⟩ | hfree
    · by_cases hempty : s = ""
      · simp [Allowed.given, Allowed.find, honce, hblank honce, hempty]
      · simp [Allowed.given, Allowed.find, honce, hblank honce, hempty]
    · simp [hfree, Allowed.unrestricted, Allowed.given]

/-- Configs with blank allowed values do not refuse the empty text. -/
theorem outcome_ne_refusal (hread : ∀ c ∈ cs, AsRead c) (hblank : ∀ c ∈ cs, Blank c) (chosen : Table String)
    (globals : Scope) (k : String) : outcome chosen globals cs ≠ .error (.notAllowed "" k) := by
  induction cs generalizing globals with
  | nil => exact nofun
  | cons c cs ih =>
    rw [outcome_cons]
    have hvalue := configValue_ne_refusal (hread c (by simp)) (hblank c (by simp)) chosen globals k
    refine bind_ne_error hvalue fun v => ?_
    refine bind_ne_error (noRefusal_configElement c v "" k) fun e => ?_
    refine bind_ne_error ?_ fun r => nofun
    exact ih (fun c' hc' => hread c' (List.mem_cons_of_mem _ hc'))
      (fun c' hc' => hblank c' (List.mem_cons_of_mem _ hc')) _

theorem noRefusal_finish (d : Document) (choices : Choices) (name id : String) (pattern : Element)
    (configs : List Element) (globals : Scope) :
    NoRefusal (finish d choices name id pattern configs globals) := by
  rw [finish]
  have hvalues := noRefusal_evaluateValues globals d.values
  rcases h : evaluateValues globals d.values with ⟨globals', r⟩
  rw [h] at hvalues
  cases r with
  | error e => exact noRefusal_error fun value config he => hvalues value config (congrArg _ he)
  | ok u =>
    refine noRefusal_bind (noRefusal_listMapM (noRefusal_colorElement choices.colors) _) fun _ => ?_
    exact noRefusal_bind (noRefusal_parts _) fun _ => noRefusal_ok _

/-! ## The exact condition -/

theorem asRead_ofElement (e : Element) : AsRead (Config.ofElement e) := by
  rw [AsRead, Config.ofElement]
  cases e.attr? "allowed_values" with
  | none => exact .inr rfl
  | some s => exact .inl ⟨rfl, by simpa using Text.cut_ne_nil rfl s⟩

/-- The configs of a document that has been read are as reading makes them. -/
theorem asRead_of_readPattern {sources : Sources} {main : String} {n' : Nat}
    (h : (readPattern sources main).run.run n = (.ok d, n')) : ∀ c ∈ d.configs, AsRead c := by
  let P : Definition → Prop := fun x => ∀ c, x = .config c → AsRead c
  have hdef : ∀ dir kind e, True → Ensures (Definition.ofElement sources dir kind e) fun p =>
      True ∧ P p.1 := by
    intro dir kind e _
    cases kind with
    | config => exact ensures_pure ⟨trivial, fun c hc => by cases hc; exact asRead_ofElement e⟩
    | action => exact ensures_pure ⟨trivial, nofun⟩
    | _ =>
      refine ensures_bind (P := fun _ => True) (fun _ _ _ _ => trivial) fun _ _ => ?_
      exact ensures_pure ⟨trivial, nofun⟩
  have hall := ensures_readPattern_all (P := P) ⟨fun _ _ => trivial, fun _ _ _ => trivial⟩
    (fun _ _ _ => trivial) (fun _ _ _ _ => nofun) hdef main n d n' h
  intro c hc
  exact hall .config (.config c) (List.mem_map.2 ⟨c, hc, rfl⟩) c rfl

/-- A document that can be packaged has metadata that can be used in a project. -/
theorem patternElement_ok {es : List Element} (h : d.leadingElements = .ok es) : ∃ p, patternElement d = .ok p := by
  obtain ⟨metadata, hm, -⟩ := bind_eq_ok.1 h
  have hmeta : ∃ ns, metadataElement d = .ok ns := by
    rw [metadataElement]
    cases hd : d.metadata with
    | none => exact ⟨[], rfl⟩
    | some m =>
      rw [hd, Option.toList_some, List.mapM_cons] at hm
      obtain ⟨e, he, -⟩ := bind_eq_ok.1 hm
      obtain ⟨es, hes, -⟩ := bind_eq_ok.1 he
      exact ⟨_, bind_eq_ok.2 ⟨es, hes, rfl⟩⟩
  obtain ⟨ns, hns⟩ := hmeta
  exact ⟨_, bind_eq_ok.2 ⟨ns, hns, rfl⟩⟩

/-- A document that has been read and that can be packaged is not used up by being packaged and compiled
just if its configs have no allowed values, but for an empty text alone that no compilation gets to look at.
For the first direction it need not be possible to package it. -/
theorem repeatable_iff_reusable {sources : Sources} {main : String} {n n' : Nat} {d : Document}
    (hread : (readPattern sources main).run.run n = (.ok d, n')) :
    (Reusable d → Repeatable d) ∧
    (∀ m text, Operation.package.answer d m = .ok text → (Repeatable d ↔ Reusable d)) := by
  refine ⟨Reusable.repeatable, fun m text htext => ⟨fun hrepeat => ?_, Reusable.repeatable⟩⟩
  have hasRead := asRead_of_readPattern hread
  have hblank : ∀ c ∈ d.configs, Blank c := by
    intro c hc honce
    have hjoin := join_eq_empty_of_repeatable htext hrepeat c hc honce
    rcases hasRead c hc with ⟨-, hne⟩ | hfree
    · exact eq_of_join_eq_empty hne hjoin
    · rw [hfree] at honce
      cases honce
  refine ⟨hblank, fun hpkg chosen before c after hconfigs honce hs r hr => ?_⟩
  -- after packaging, compiling refuses the empty text, which it did not do before
  obtain ⟨m', hrun⟩ := leave_package htext
  have hagain := (hrepeat [.package] (.compile ⟨chosen, Table.empty⟩ "") m m' _ hrun).1
  have hpkg' : ¬((stamp d m).pkgVersion.getD "").isEmpty := by
    rw [(leftOver_stamp d m).same]
    exact hpkg
  rw [stampedAs_stamp, answer_compile, answer_compile, if_neg hpkg', if_neg hpkg'] at hagain
  have hbefore : ∀ b ∈ before, Blank b := fun b hb => hblank b (by simp [hconfigs, hb])
  obtain ⟨k, hk⟩ := outcome_written_refuses after hbefore honce hs hr
  rw [← hconfigs] at hk
  obtain ⟨leading, -, hleading, -⟩ := elements_of_package htext
  obtain ⟨pattern, hpattern⟩ := patternElement_ok hleading
  rw [hk, projectWith, hpattern] at hagain
  refine absurd hagain.symm (bind_ne_error (by rw [hpattern]; exact nofun) fun p => ?_)
  refine bind_ne_error (outcome_ne_refusal hasRead hblank chosen _ k) fun r => ?_
  exact bind_ne_error (noRefusal_finish _ _ _ _ _ _ _ "" k) fun _ => noRefusal_write _ "" k

/-- A pattern with a config that lists its allowed values. -/
def restrictedPattern : String :=
  "<pattern xmlns:opaf=\"u\"><opaf:define_config name=\"c\" allowed_values=\"1,2\"/></pattern>"

/-- The pattern can be read and packaged, and is used up. -/
theorem restrictedPattern_used_up : ∃ d n',
    (readPattern (oneFile "p" restrictedPattern) "p").run.run 0 = (.ok d, n') ∧
      (∃ text, Operation.package.answer d 0 = .ok text) ∧ ¬Repeatable d := by
  have hcheck : (match (readPattern (oneFile "p" restrictedPattern) "p").run.run 0 with
      | (.ok d, _) => (Operation.package.answer d 0).isOk &&
        d.configs.any fun c => c.allowed.once && c.allowed.values != [""]
      | (.error _, _) => false) = true := by decide +kernel
  rcases hr : (readPattern (oneFile "p" restrictedPattern) "p").run.run 0 with ⟨r, n'⟩
  rw [hr] at hcheck
  cases r with
  | error e => cases hcheck
  | ok d =>
    simp only [Bool.and_eq_true, List.any_eq_true, bne_iff_ne] at hcheck
    obtain ⟨hok, c, hc, honce, hne⟩ := hcheck
    cases htext : Operation.package.answer d 0 with
    | error e => rw [htext] at hok; cases hok
    | ok text =>
      refine ⟨d, n', rfl, ⟨text, htext⟩, fun hrepeat => hne ?_⟩
      exact (((repeatable_iff_reusable hr).2 0 text htext).1 hrepeat).blank c hc honce

end Stitchwork.Project
