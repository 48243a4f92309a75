import CallBridge.Proofs.Registry.Definitions
import CallBridge.Proofs.Text.Pieces

/-!
# First mention wins

Features and extensions mention commands, and a command is declared by the first that
mentions it.  Which of them count for an API, and in which order their mentions come, is
said here of the elements alone: `Applies`, `Supports`, `entries` and `citations`.

* `firsts` keeps the first pair of each key, and `firsts_append` takes it through a loop
  that hands on the keys seen so far;
* `declareAll_eq_ok_iff`: a run over all entries declares the first citations;
* `declares_iff`: these are the names in order of first mention, each with its last
  definition and the entry that mentions it first;
* `first_mention_of_declarations`: when a registry can be read, and what it declares.
-/

namespace CallBridge.Registry

open Markup

/-! ## What counts for an API -/

/-- A requirement is limited neither to another API nor to another profile. -/
def Applies (requirement : Element) (api : String) : Prop :=
  (∀ other, requirement.attribute? "api" = some other → other = api) ∧
    ∀ other, requirement.attribute? "profile" = some other → other = "compatibility"

/-- An extension supports an API: its list of names, joined by bars, has the API in it. -/
def Supports (extension : Element) (api : String) : Prop :=
  ∃ listed names, extension.attribute? "supported" = some listed ∧ api.toList ∈ names ∧
    (∀ name ∈ names, '|' ∉ name) ∧ listed.toList = Text.joinWith ['|'] names

theorem applies_eq_true_iff {requirement : Element} {api : String} :
    applies requirement api = true ↔ Applies requirement api := by
  rw [applies, Applies, Bool.and_eq_true]
  refine and_congr ?_ ?_
  · cases requirement.attribute? "api" with
    | none => exact iff_of_true rfl nofun
    | some other => simp
  · cases requirement.attribute? "profile" with
    | none => exact iff_of_true rfl nofun
    | some other => simp [profile]

theorem supports_eq_true_iff {extension : Element} {api : String} :
    supports extension api = true ↔ Supports extension api := by
  rw [supports, Supports]
  cases extension.attribute? "supported" with
  | none => exact iff_of_false Bool.false_ne_true (by rintro ⟨_, _, h, -⟩; cases h)
  | some listed =>
    have hlisted : (((Text.pieces (· == '|') listed.toList).map String.ofList).contains api) = true ↔
        api.toList ∈ Text.pieces (· == '|') listed.toList := by
      rw [List.contains_iff_mem, List.mem_map]
      constructor
      · rintro ⟨piece, hmem, rfl⟩
        rwa [String.toList_ofList]
      · intro hmem
        exact ⟨api.toList, hmem, String.ofList_toList⟩
    refine hlisted.trans ⟨?_, ?_⟩
    · intro hmem
      refine ⟨listed, Text.pieces (· == '|') listed.toList, rfl, hmem, ?_,
        (Text.joinWith_pieces '|' listed.toList).symm⟩
      intro name hname hbar
      have hnot := Text.separates_eq_false_of_mem_pieces hname '|' hbar
      exact absurd hnot (by decide)
    · rintro ⟨listed', names, hlisted', hmem, hfree, hjoined⟩
      obtain rfl := Option.some.inj hlisted'
      rw [hjoined, Text.pieces_joinWith (List.ne_nil_of_mem hmem) hfree]
      exact hmem

instance (requirement : Element) (api : String) : Decidable (Applies requirement api) :=
  decidable_of_iff _ applies_eq_true_iff

instance (extension : Element) (api : String) : Decidable (Supports extension api) :=
  decidable_of_iff _ supports_eq_true_iff

/-- The commands that a registry defines, in document order. -/
def definitions (root : Element) : List Element :=
  (root.childrenNamed "commands").flatMap (·.childrenNamed "command")

/-- The features of an API and then the extensions that support it, in document order. -/
def entries (root : Element) (api : String) : List Element :=
  (root.childrenNamed "feature").filter (fun feature => feature.attribute? "api" = some api) ++
    ((root.childrenNamed "extensions").flatMap (·.childrenNamed "extension")).filter
      (fun extension => Supports extension api)

/-- A command that an entry mentions by its name. -/
structure Citation where
  entry : Element
  command : String

/-- The mentions of commands by one entry, in document order. -/
def citationsOf (entry : Element) (api : String) : List Citation :=
  (((entry.childrenNamed "require").filter (fun requirement => Applies requirement api)).flatMap
    (·.childrenNamed "command")).filterMap fun command =>
      (command.attribute? "name").map (⟨entry, ·⟩)

/-- The mentions of commands for an API: those of features and then those of extensions, in
document order. -/
def citations (root : Element) (api : String) : List Citation :=
  (entries root api).flatMap (citationsOf · api)

theorem applicable_eq_entries (root : Element) (api : String) :
    applicable root api = entries root api := by
  have hsupports : (supports · api) = fun extension => decide (Supports extension api) := by
    funext extension
    rw [Bool.eq_iff_iff, supports_eq_true_iff, decide_eq_true_iff]
  rw [applicable, entries, hsupports, List.filter_flatMap]
  congr 2
  funext feature
  rw [Bool.eq_iff_iff, beq_iff_eq, decide_eq_true_iff]

theorem citationsOf_eq (entry : Element) (api : String) :
    citationsOf entry api = (mentions entry api).map fun m => ⟨entry, m.command⟩ := by
  have happlies : (applies · api) = fun requirement => decide (Applies requirement api) := by
    funext requirement
    rw [Bool.eq_iff_iff, applies_eq_true_iff, decide_eq_true_iff]
  rw [mentions, citationsOf, happlies, List.filterMap_flatMap, List.map_flatMap]
  congr 1
  funext requirement
  rw [List.map_filterMap]
  congr 1
  funext command
  rw [Option.map_map]
  rfl

/-! ## First pairs -/

variable {β : Type}

/-- The pairs whose keys have not been seen, the first of each key. -/
def firsts (seen : List String) : List (String × β) → List (String × β)
  | [] => []
  | pair :: rest =>
    if pair.1 ∈ seen then firsts seen rest else pair :: firsts (pair.1 :: seen) rest

/-- The keys seen after a list of pairs, the newest first. -/
def seenAfter (seen : List String) (pairs : List (String × β)) : List String :=
  ((firsts seen pairs).map Prod.fst).reverse ++ seen

theorem firsts_append (seen : List String) (pairs more : List (String × β)) :
    firsts seen (pairs ++ more) = firsts seen pairs ++ firsts (seenAfter seen pairs) more := by
  induction pairs generalizing seen with
  | nil => rfl
  | cons pair pairs ih =>
    rw [List.cons_append, firsts, seenAfter, firsts]
    split
    · exact ih seen
    · rw [ih, seenAfter, List.cons_append]
      simp

theorem keys_firsts (seen : List String) (pairs : List (String × β)) :
    (firsts seen pairs).map Prod.fst =
      ((pairs.map Prod.fst).filter (· ∉ seen)).eraseDups := by
  induction pairs generalizing seen with
  | nil => rfl
  | cons pair pairs ih =>
    rw [firsts, List.map_cons, List.filter_cons]
    by_cases hseen : pair.1 ∈ seen
    · rw [if_pos hseen, if_neg (by simpa using hseen), ih]
    · rw [if_neg hseen, if_pos (by simpa using hseen), List.map_cons, ih, List.eraseDups_cons,
        List.filter_filter]
      congr 3
      funext key
      by_cases hkey : key = pair.1 <;> simp [hkey]

/-- A pair that is kept is the first of its key. -/
theorem exists_of_mem_firsts {seen : List String} {pairs : List (String × β)}
    {pair : String × β} (hmem : pair ∈ firsts seen pairs) :
    ∃ before after, pairs = before ++ pair :: after ∧ pair.1 ∉ seen ∧
      ∀ earlier ∈ before, earlier.1 ≠ pair.1 := by
  induction pairs generalizing seen with
  | nil => cases hmem
  | cons first pairs ih =>
    rw [firsts] at hmem
    by_cases hseen : first.1 ∈ seen
    · rw [if_pos hseen] at hmem
      obtain ⟨before, after, rfl, hnew, hbefore⟩ := ih hmem
      refine ⟨first :: before, after, rfl, hnew, List.forall_mem_cons.mpr ⟨?_, hbefore⟩⟩
      rintro heq
      exact hnew (heq ▸ hseen)
    · rw [if_neg hseen] at hmem
      rcases List.mem_cons.mp hmem with rfl | hrest
      · exact ⟨[], pairs, rfl, hseen, List.forall_mem_nil _⟩
      · obtain ⟨before, after, rfl, hnew, hbefore⟩ := ih hrest
        obtain ⟨hne, hnew⟩ := not_or.mp (List.mem_cons.not.mp hnew)
        exact ⟨first :: before, after, rfl, hnew, List.forall_mem_cons.mpr ⟨Ne.symm hne, hbefore⟩⟩

/-! ## Declaring -/

/-- A command and the name of an entry are turned into a declaration. -/
def Declared (table : List Signature) (pair : String × String) (d : Declaration) : Prop :=
  lookup? table pair.1 = some d.signature ∧ d.feature = pair.2

/-- The command that a citation mentions and the name of its entry. -/
def Citation.pair (c : Citation) : String × String :=
  (c.command, (c.entry.attribute? "name").getD "")

variable {table : List Signature}

theorem declareMentions_eq_ok_iff {feature : String} {seen seen' : List String}
    {ms : List Mention} {ds : List Declaration} :
    declareMentions table feature seen ms = .ok (ds, seen') ↔
      List.Forall₂ (Declared table) (firsts seen (ms.map fun m => (m.command, feature))) ds ∧
        seen' = seenAfter seen (ms.map fun m => (m.command, feature)) := by
  induction ms generalizing seen seen' ds with
  | nil => simp [declareMentions, firsts, seenAfter, eq_comm]
  | cons m ms ih =>
    rw [List.map_cons, declareMentions, seenAfter, firsts]
    by_cases hseen : m.command ∈ seen
    · rw [if_pos (List.contains_iff_mem.mpr hseen), if_pos hseen]
      exact ih
    · rw [if_neg (List.contains_iff_mem.not.mpr hseen), if_neg hseen]
      have hafter : ((((m.command, feature) :: firsts (m.command :: seen)
          (ms.map fun m => (m.command, feature))).map Prod.fst).reverse ++ seen) =
            seenAfter (m.command :: seen) (ms.map fun m => (m.command, feature)) := by
        simp [seenAfter]
      rw [hafter, List.forall₂_cons_left_iff]
      cases hlook : lookup? table m.command with
      | none =>
        refine iff_of_false nofun ?_
        rintro ⟨⟨d, rest, ⟨hd, -⟩, -⟩, -⟩
        rw [hlook] at hd
        cases hd
      | some s =>
        simp only [bind_eq_ok_iff, Prod.exists, ih, Except.ok.injEq, Prod.mk.injEq]
        constructor
        · rintro ⟨rest, last, ⟨hrest, rfl⟩, rfl, rfl⟩
          exact ⟨⟨⟨s, feature⟩, rest, ⟨hlook, rfl⟩, hrest, rfl⟩, rfl⟩
        · rintro ⟨⟨⟨s', feature'⟩, rest, ⟨hd, rfl⟩, hrest, rfl⟩, rfl⟩
          rw [hlook, Option.some.injEq] at hd
          exact ⟨rest, _, ⟨hrest, rfl⟩, by rw [hd], rfl⟩

/-- A run over entries declares the first mention of each command that has not been seen, and
it needs the name of every entry. -/
theorem declareAll_eq_ok_iff {api : String} {seen : List String} {es : List Element}
    {ds : List Declaration} :
    declareAll table api seen es = .ok ds ↔
      (∀ e ∈ es, (e.attribute? "name").isSome = true) ∧
        List.Forall₂ (Declared table)
          (firsts seen ((es.flatMap (citationsOf · api)).map Citation.pair)) ds := by
  induction es generalizing seen ds with
  | nil =>
    rw [declareAll, List.flatMap_nil, List.map_nil, firsts, List.forall₂_nil_left_iff,
      Except.ok.injEq]
    exact ⟨fun h => ⟨List.forall_mem_nil _, h.symm⟩, fun h => h.2.symm⟩
  | cons e es ih =>
    rw [List.forall_mem_cons, declareAll]
    cases hname : e.attribute? "name" with
    | none => exact iff_of_false nofun (by rintro ⟨⟨h, -⟩, -⟩; cases h)
    | some name =>
      have hpairs : (citationsOf e api).map Citation.pair =
          (mentions e api).map fun m => (m.command, name) := by
        rw [citationsOf_eq, List.map_map]
        congr 1
        funext m
        rw [Function.comp_apply, Citation.pair, hname]
        rfl
      rw [List.flatMap_cons, List.map_append, hpairs, firsts_append]
      simp only [bind_eq_ok_iff, Prod.exists, declareMentions_eq_ok_iff, ih, Except.ok.injEq]
      constructor
      · rintro ⟨here, last, ⟨hhere, rfl⟩, more, ⟨hnamed, hmore⟩, rfl⟩
        exact ⟨⟨rfl, hnamed⟩, List.rel_append hhere hmore⟩
      · rintro ⟨⟨-, hnamed⟩, hall⟩
        obtain ⟨here, more, hhere, hmore, rfl⟩ := exists_of_forall₂_append hall
        exact ⟨here, _, ⟨hhere, rfl⟩, more, ⟨hnamed, hmore⟩, rfl⟩

/-! ## Registries -/

/-- A name is mentioned for the first time by an entry of this name. -/
def MentionedFirst (root : Element) (api name feature : String) : Prop :=
  ∃ before c after, citations root api = before ++ c :: after ∧ c.command = name ∧
    c.entry.attribute? "name" = some feature ∧ ∀ earlier ∈ before, earlier.command ≠ name

/-- Every definition is complete, every entry has a name, and every mentioned command is
defined. -/
structure Readable (root : Element) (api : String) : Prop where
  complete : ∀ command ∈ definitions root, IsComplete command
  named : ∀ entry ∈ entries root api, (entry.attribute? "name").isSome = true
  defined : ∀ c ∈ citations root api,
    ∃ command ∈ definitions root, ∃ s, GivesSignature command s ∧ s.name = c.command

/-- The declarations have the mentioned names, each once, in order of first mention, and each
has the last definition of its name and the entry that mentions it first. -/
structure Declares (root : Element) (api : String) (ds : List Declaration) : Prop where
  names : ds.map Declaration.name = ((citations root api).map Citation.command).eraseDups
  signature : ∀ d ∈ ds, LastDefinition (definitions root) d.name d.signature
  feature : ∀ d ∈ ds, MentionedFirst root api d.name d.feature

variable {root : Element} {api : String} {ds : List Declaration}

theorem mentionedFirst_iff {name feature : String} :
    MentionedFirst root api name feature ↔
      ∃ c, (citations root api).find? (·.command == name) = some c ∧
        c.entry.attribute? "name" = some feature := by
  simp only [List.find?_eq_some_iff_append, beq_iff_eq, Bool.not_eq_true', beq_eq_false_iff_ne]
  constructor
  · rintro ⟨before, c, after, hsplit, hname, hfeature, hbefore⟩
    exact ⟨c, ⟨hname, before, after, hsplit, hbefore⟩, hfeature⟩
  · rintro ⟨c, ⟨hname, before, after, hsplit, hbefore⟩, hfeature⟩
    exact ⟨before, c, after, hsplit, hname, hfeature, hbefore⟩

theorem lookup?_name {name : String} {s : Signature} (h : lookup? table name = some s) :
    s.name = name := by
  have hfound := List.find?_some (p := fun s : Signature => s.name == name) h
  exact beq_iff_eq.mp hfound

/-- What is declared of the first citations is what the registry declares. -/
theorem declares_of_forall₂ (htable : List.Forall₂ GivesSignature (definitions root) table)
    (hnamed : ∀ entry ∈ entries root api, (entry.attribute? "name").isSome = true)
    (hds : List.Forall₂ (Declared table) (firsts [] ((citations root api).map Citation.pair)) ds) :
    Declares root api ds := by
  have hname {pair : String × String} {d : Declaration} (h : Declared table pair d) :
      d.name = pair.1 :=
    lookup?_name h.1
  refine ⟨?_, ?_, ?_⟩
  · have hkeys : ds.map Declaration.name =
        (firsts [] ((citations root api).map Citation.pair)).map Prod.fst := by
      rw [← List.forall₂_eq_eq_eq, List.forall₂_map_left_iff, List.forall₂_map_right_iff]
      exact (hds.imp fun _ _ h => hname h).flip
    rw [hkeys, keys_firsts, List.map_map]
    simp [Citation.pair, Function.comp_def]
  · intro d hd
    obtain ⟨before, after, rfl⟩ := List.append_of_mem hd
    obtain ⟨_, pair, _, -, hpair, -⟩ := exists_of_forall₂_append_cons hds
    rw [hname hpair, ← lookup?_eq_some_iff htable]
    exact hpair.1
  · intro d hd
    obtain ⟨before, after, rfl⟩ := List.append_of_mem hd
    obtain ⟨left, pair, right, hsplit, hpair, -⟩ := exists_of_forall₂_append_cons hds
    have hmem : pair ∈ firsts [] ((citations root api).map Citation.pair) := by
      rw [hsplit]
      exact List.mem_append_right _ List.mem_cons_self
    obtain ⟨earlier, later, hcitations, -, hearlier⟩ := exists_of_mem_firsts hmem
    obtain ⟨cs, rest, hall, rfl, hrest⟩ := List.map_eq_append_iff.mp hcitations
    obtain ⟨c, cs', rfl, rfl, rfl⟩ := List.map_eq_cons_iff.mp hrest
    have hentry : c.entry ∈ entries root api := by
      have hc : c ∈ citations root api := by
        rw [hall]
        exact List.mem_append_right _ List.mem_cons_self
      obtain ⟨entry, hentry, hof⟩ := List.mem_flatMap.mp hc
      rw [citationsOf_eq] at hof
      obtain ⟨m, -, rfl⟩ := List.mem_map.mp hof
      exact hentry
    obtain ⟨feature, hfeature⟩ := Option.isSome_iff_exists.mp (hnamed c.entry hentry)
    refine ⟨cs, c, cs', hall, (hname hpair).symm, ?_, ?_⟩
    · rw [hpair.2, Citation.pair, hfeature]
      rfl
    · intro e he
      rw [hname hpair]
      exact hearlier e.pair (List.mem_map_of_mem he)

theorem eq_of_map_eq {α : Type} {f : α → β} {xs ys : List α} (h : xs.map f = ys.map f)
    (hinj : ∀ x ∈ xs, ∀ y ∈ ys, f x = f y → x = y) : xs = ys := by
  rw [← List.forall₂_eq_eq_eq]
  rw [← List.forall₂_eq_eq_eq, List.forall₂_map_left_iff, List.forall₂_map_right_iff] at h
  rw [List.forall₂_iff_zip] at h ⊢
  refine ⟨h.1, fun hmem => ?_⟩
  exact hinj _ (List.of_mem_zip hmem).1 _ (List.of_mem_zip hmem).2 (h.2 hmem)

/-- A registry declares one list only. -/
theorem Declares.unique {ds' : List Declaration} (h : Declares root api ds)
    (h' : Declares root api ds')
    (htable : List.Forall₂ GivesSignature (definitions root) table) : ds = ds' := by
  refine eq_of_map_eq (h.names.trans h'.names.symm) ?_
  intro d hd d' hd' hname
  have hsignature := (lookup?_eq_some_iff htable).mpr (h.signature d hd)
  have hsignature' := (lookup?_eq_some_iff htable).mpr (h'.signature d' hd')
  obtain ⟨c, hc, hfeature⟩ := mentionedFirst_iff.mp (h.feature d hd)
  obtain ⟨c', hc', hfeature'⟩ := mentionedFirst_iff.mp (h'.feature d' hd')
  rw [hname, hsignature', Option.some.injEq] at hsignature
  rw [hname, hc', Option.some.injEq] at hc
  rw [hc, hfeature, Option.some.injEq] at hfeature'
  obtain ⟨signature, feature⟩ := d
  obtain ⟨signature', feature'⟩ := d'
  rw [Declaration.mk.injEq]
  exact ⟨hsignature.symm, hfeature'⟩

theorem ofRoot_eq_ok_iff (hroot : root.name = "registry") :
    ofRoot root api = .ok ds ↔
      ∃ table, List.Forall₂ GivesSignature (definitions root) table ∧
        (∀ entry ∈ entries root api, (entry.attribute? "name").isSome = true) ∧
        List.Forall₂ (Declared table) (firsts [] ((citations root api).map Citation.pair)) ds := by
  rw [ofRoot, if_neg (not_not_intro hroot), bind_eq_ok_iff]
  refine exists_congr fun table => ?_
  rw [signatures_eq_ok_iff, declareAll_eq_ok_iff, applicable_eq_entries]
  rfl

/-- With a table of all definitions, every mentioned command can be declared if it is
defined. -/
theorem forall_declared_iff (htable : List.Forall₂ GivesSignature (definitions root) table) :
    (∃ ds, List.Forall₂ (Declared table) (firsts [] ((citations root api).map Citation.pair)) ds) ↔
      ∀ c ∈ citations root api,
        ∃ command ∈ definitions root, ∃ s, GivesSignature command s ∧ s.name = c.command := by
  have hdefined (name : String) : (lookup? table name).isSome = true ↔
      ∃ command ∈ definitions root, ∃ s, GivesSignature command s ∧ s.name = name := by
    rw [lookup?, List.find?_isSome]
    constructor
    · rintro ⟨s, hs, hname⟩
      obtain ⟨before, after, rfl⟩ := List.append_of_mem (List.mem_reverse.mp hs)
      obtain ⟨first, command, rest, hsplit, hgiven, -⟩ := exists_of_forall₂_append_cons htable
      refine ⟨command, ?_, s, hgiven, beq_iff_eq.mp hname⟩
      rw [hsplit]
      exact List.mem_append_right _ List.mem_cons_self
    · rintro ⟨command, hcommand, s, hgiven, hname⟩
      obtain ⟨before, after, hsplit⟩ := List.append_of_mem hcommand
      rw [hsplit] at htable
      obtain ⟨first, t, rest, rfl, ht, -⟩ := exists_of_append_cons_forall₂ htable
      obtain rfl := givesSignature_unique hgiven ht
      exact ⟨s, by simp, beq_iff_eq.mpr hname⟩
  have hkeys (name : String) :
      name ∈ (firsts [] ((citations root api).map Citation.pair)).map Prod.fst ↔
        ∃ c ∈ citations root api, c.command = name := by
    rw [keys_firsts, List.mem_eraseDups]
    simp [Citation.pair]
  rw [exists_forall₂_iff]
  constructor
  · intro hall c hc
    obtain ⟨pair, hpair, hkey⟩ := List.mem_map.mp ((hkeys c.command).mpr ⟨c, hc, rfl⟩)
    obtain ⟨d, hd, -⟩ := hall pair hpair
    rw [← hkey, ← hdefined, hd]
    rfl
  · intro hall pair hpair
    obtain ⟨c, hc, hname⟩ := (hkeys pair.1).mp (List.mem_map_of_mem hpair)
    have hsome := (hdefined c.command).mpr (hall c hc)
    rw [hname] at hsome
    obtain ⟨s, hs⟩ := Option.isSome_iff_exists.mp hsome
    exact ⟨⟨s, pair.2⟩, hs, rfl⟩

/-- A registry that can be read declares something. -/
theorem exists_ofRoot_iff (hroot : root.name = "registry") :
    (∃ ds, ofRoot root api = .ok ds) ↔ Readable root api := by
  have hcomplete : (∃ table, List.Forall₂ GivesSignature (definitions root) table) ↔
      ∀ command ∈ definitions root, IsComplete command := by
    rw [exists_forall₂_iff]
    exact forall₂_congr fun command _ => exists_givesSignature_iff
  simp only [ofRoot_eq_ok_iff hroot]
  constructor
  · rintro ⟨ds, table, htable, hnamed, hds⟩
    exact ⟨hcomplete.mp ⟨table, htable⟩, hnamed, (forall_declared_iff htable).mp ⟨ds, hds⟩⟩
  · intro h
    obtain ⟨table, htable⟩ := hcomplete.mpr h.complete
    obtain ⟨ds, hds⟩ := (forall_declared_iff htable).mpr h.defined
    exact ⟨ds, table, htable, h.named, hds⟩

/-- A registry can be read for an API just if every definition in it is complete, every feature
and extension that counts for the API has a name, and every command that one of them
mentions is defined.  Then it declares each mentioned name once, in order of first mention,
with the last definition of the name, under the feature or extension that mentions it
first. -/
theorem first_mention_of_declarations {text : String} {root : Element}
    (hparse : parse text = .ok root) (hroot : root.name = "registry") (api : String) :
    ((∃ ds, declarations text api = .ok ds) ↔ Readable root api) ∧
      ∀ ds, declarations text api = .ok ds ↔ Readable root api ∧ Declares root api ds := by
  have hread (ds : List Declaration) :
      declarations text api = .ok ds ↔ ofRoot root api = .ok ds := by
    simp only [declarations, hparse]
    cases ofRoot root api with
    | ok ds' => rw [Except.ok.injEq, Except.ok.injEq]
    | error fault => exact iff_of_false nofun nofun
  simp only [hread]
  refine ⟨exists_ofRoot_iff hroot, fun ds => ⟨?_, ?_⟩⟩
  · intro hds
    obtain ⟨table, htable, hnamed, hall⟩ := (ofRoot_eq_ok_iff hroot).mp hds
    exact ⟨(exists_ofRoot_iff hroot).mp ⟨ds, hds⟩, declares_of_forall₂ htable hnamed hall⟩
  · rintro ⟨hreadable, hdeclares⟩
    obtain ⟨ds', hds'⟩ := (exists_ofRoot_iff hroot).mpr hreadable
    obtain ⟨table, htable, hnamed, hall⟩ := (ofRoot_eq_ok_iff hroot).mp hds'
    rw [hdeclares.unique (declares_of_forall₂ htable hnamed hall) htable]
    exact hds'

/-- A registry that defines one command twice.  A feature mentions it twice and an extension once
more, and a requirement for another profile mentions a command that is not defined. -/
def crossedRegistry : String :=
  "<registry><commands><command><proto>int <name>f</name></proto></command>
    <command><proto>void<name> g</name></proto></command>
    <command><proto>void <name> f </name></proto><param>int *<name>p</name></param></command>
    </commands><extensions><extension name='X' supported='gles|gl'><require>
    <command name='g'/><command name='f'/></require></extension></extensions>
    <feature api='gl' name='A'><require profile='core'><command name='h'/></require>
    <require><command name='f'/><command/><command name='f'/></require></feature></registry>"

set_option maxRecDepth 8192 in
/-- The last definition and the first mention count. -/
theorem declares_crossedRegistry :
    ∃ root, parse crossedRegistry = .ok root ∧ root.name = "registry" ∧ Readable root "gl" ∧
      Declares root "gl"
        [⟨⟨"f", "void", .list [⟨"int *", "p"⟩]⟩, "A"⟩, ⟨⟨"g", "void", .void⟩, "X"⟩] := by
  have hchars : crossedRegistry.toList = _ := String.toList_ofList
  have hdeclarations : declarations crossedRegistry "gl" = .ok
      [⟨⟨"f", "void", .list [⟨"int *", "p"⟩]⟩, "A"⟩, ⟨⟨"g", "void", .void⟩, "X"⟩] := by
    rw [declarations, parse, hchars]
    decide +kernel
  have hname : (parse crossedRegistry).map Element.name = .ok "registry" := by
    rw [parse, hchars]
    decide +kernel
  cases hparse : parse crossedRegistry with
  | error report =>
    rw [hparse] at hname
    cases hname
  | ok root =>
    rw [hparse] at hname
    have hroot : root.name = "registry" := Except.ok.inj hname
    have hmention := first_mention_of_declarations hparse hroot "gl"
    exact ⟨root, rfl, hroot, (hmention.2 _).mp hdeclarations⟩

end CallBridge.Registry
