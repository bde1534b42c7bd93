import CachePolicy.Policy.Compile
import CachePolicy.Proofs.Policy.Assembly
import CachePolicy.Proofs.Policy.Determined
import CachePolicy.Proofs.Text.Occurrence
import CachePolicy.Site.Assets

/-!
# The place for the list of files

A program has a call that stores ahead the files which a build finds, and the placeholder in it
is what a build looks for.  Before this call there is little in which a policy can write the
placeholder as well: the URL of the library, and the caches that the program declares.  If it is
in none of these, the list of files takes the place that is meant for it and nothing else is
changed; otherwise the list ends up in one of these texts.
-/

namespace CachePolicy

/-- A text stands somewhere in another one. -/
def Text.Occurs (needle text : String) : Prop := needle.toList <:+: text.toList

/-- The placeholder stands in a text. -/
def HoldsPlaceholder (text : String) : Prop := Text.Occurs manifestPlaceholder text

/-! ## Characters of the placeholder -/

/-- The characters of the placeholder are written as they are, its first one is never part of
an escape, and a `B` is among them. -/
theorem placeholder_chars :
    manifestPlaceholder.toList = 's' :: "elf.__WB_MANIFEST".toList ∧
      (∀ c ∈ manifestPlaceholder.toList, Json.escapeChar c = [c]) ∧
      'B' ∈ manifestPlaceholder.toList := by
  have plain : (manifestPlaceholder.toList.all fun c => Json.escapeChar c == [c]) = true := by
    decide
  refine ⟨by decide, fun c member => ?_, by decide⟩
  exact beq_iff_eq.mp (List.all_eq_true.mp plain c member)

/-- None of the characters that divide a text of a program is in the placeholder. -/
theorem notMem_placeholder {c : Char} (divides : c ∈ "\n (),;[]\"".toList) :
    c ∉ manifestPlaceholder.toList := by
  have all : ("\n (),;[]\"".toList.all fun c => !manifestPlaceholder.toList.contains c) = true := by
    decide
  simpa using List.all_eq_true.mp all c divides

theorem placeholder_ne_nil : manifestPlaceholder.toList ≠ [] := by
  rw [placeholder_chars.1]
  exact List.cons_ne_nil _ _

theorem not_infix_of_notMem {chars : List Char} (absent : 'B' ∉ chars) :
    ¬manifestPlaceholder.toList <:+: chars :=
  fun occurs => absent (occurs.subset placeholder_chars.2.2)

/-- Between characters that divide a text, the placeholder stands only in what is between. -/
theorem infix_between_iff {opening inner closing : List Char} {c d : Char}
    (first : c ∈ "\n (),;[]\"".toList) (second : d ∈ "\n (),;[]\"".toList)
    (before : 'B' ∉ opening) (after : 'B' ∉ closing) :
    manifestPlaceholder.toList <:+: opening ++ c :: (inner ++ d :: closing) ↔
      manifestPlaceholder.toList <:+: inner := by
  rw [Text.infix_append_cons_iff (notMem_placeholder first),
    Text.infix_append_cons_iff (notMem_placeholder second)]
  simp [not_infix_of_notMem before, not_infix_of_notMem after]

theorem not_holdsPlaceholder_of_bytes {text : String}
    (absent : (Text.bytes text).contains 66 = false) : ¬HoldsPlaceholder text := by
  apply not_infix_of_notMem
  intro member
  have present : 66 ∈ Text.bytes text := by
    rw [Text.bytes_eq, List.mem_flatMap]
    exact ⟨'B', member, List.mem_singleton.mpr rfl⟩
  rw [List.contains_iff_mem.mpr present] at absent
  cases absent

/-! ## Quoted texts -/

namespace Json

theorem escapeChar_cases (c : Char) :
    escapeChar c = [c] ∨
      escapeChar c ≠ [c] ∧ ∃ more, escapeChar c = '\\' :: more ∧ 's' ∉ more := by
  by_cases plain : escapeChar c = [c]
  · exact .inl plain
  · refine .inr ⟨plain, ?_⟩
    have hex (n : Nat) : Text.lowerHex n ≠ 's' := by
      intro same
      have digit := Text.hexValue?_lowerHex n
      rw [same] at digit
      cases digit
    unfold escapeChar at plain ⊢
    repeat' split
    all_goals first
      | exact ⟨_, rfl, by decide⟩
      | skip
    · refine ⟨_, rfl, ?_⟩
      simp [(hex _).symm]
    · simp_all

/-- A text whose characters are written as they are begins a text just when it begins what is
written. -/
theorem prefix_flatMap_escapeChar_iff {needle : List Char}
    (plain : ∀ c ∈ needle, escapeChar c = [c]) (text : List Char) :
    needle <+: text.flatMap escapeChar ↔ needle <+: text := by
  induction needle generalizing text with
  | nil => simp
  | cons d needle ih =>
      have first := plain d List.mem_cons_self
      have slash : d ≠ '\\' := by
        rintro rfl
        exact absurd first (by decide)
      cases text with
      | nil => simp
      | cons c text =>
          rw [List.flatMap_cons]
          rcases escapeChar_cases c with same | ⟨differs, more, escaped, -⟩
          · rw [same, List.singleton_append, List.cons_prefix_cons, List.cons_prefix_cons,
              ih fun e member => plain e (List.mem_cons_of_mem _ member)]
          · rw [escaped, List.cons_append, List.cons_prefix_cons, List.cons_prefix_cons]
            constructor
            · rintro ⟨same, -⟩
              exact absurd same slash
            · rintro ⟨rfl, -⟩
              exact absurd first differs

end Json

/-- The placeholder does not begin within characters that its first one is not among. -/
theorem infix_append_iff_of_notMem {more rest : List Char} (absent : 's' ∉ more) :
    manifestPlaceholder.toList <:+: more ++ rest ↔ manifestPlaceholder.toList <:+: rest := by
  induction more with
  | nil => rw [List.nil_append]
  | cons d more ih =>
      rw [List.mem_cons, not_or] at absent
      rw [List.cons_append, List.infix_cons_iff, ih absent.2]
      refine or_iff_right ?_
      rw [placeholder_chars.1, List.cons_prefix_cons]
      rintro ⟨same, -⟩
      exact absent.1 same

/-- Escapes neither hide the placeholder nor make one. -/
theorem infix_flatMap_escapeChar_iff (text : List Char) :
    manifestPlaceholder.toList <:+: text.flatMap Json.escapeChar ↔
      manifestPlaceholder.toList <:+: text := by
  have plain := placeholder_chars.2.1
  induction text with
  | nil => rw [List.flatMap_nil]
  | cons c text ih =>
      rw [List.flatMap_cons]
      rcases Json.escapeChar_cases c with same | ⟨differs, more, escaped, absent⟩
      · have starts := Json.prefix_flatMap_escapeChar_iff plain (c :: text)
        rw [List.flatMap_cons, same, List.singleton_append] at starts
        rw [same, List.singleton_append, List.infix_cons_iff, List.infix_cons_iff, starts]
        exact or_congr_right ih
      · have slash : '\\' ∉ manifestPlaceholder.toList :=
          fun member => absurd (plain _ member) (by decide)
        have other : c ∉ manifestPlaceholder.toList := fun member => differs (plain c member)
        rw [escaped, ← List.nil_append (('\\' :: more) ++ _), List.cons_append,
          Text.infix_append_cons_iff slash, infix_append_iff_of_notMem absent,
          ← List.nil_append (c :: text), Text.infix_append_cons_iff other]
        exact or_congr_right ih

/-- A literal holds the placeholder just when its text does. -/
theorem infix_quotedChars_iff (text : List Char) :
    manifestPlaceholder.toList <:+: Json.quotedChars text ↔
      manifestPlaceholder.toList <:+: text := by
  rw [Json.quotedChars, ← List.nil_append ('"' :: _),
    infix_between_iff (by decide) (by decide) List.not_mem_nil List.not_mem_nil,
    infix_flatMap_escapeChar_iff]

theorem infix_compactItems_iff (texts : List String) :
    manifestPlaceholder.toList <:+: Json.compactItems (texts.map .str) ↔
      ∃ text ∈ texts, HoldsPlaceholder text := by
  induction texts with
  | nil =>
      have nothing : ¬manifestPlaceholder.toList <:+: Json.compactItems [] :=
        not_infix_of_notMem List.not_mem_nil
      simpa using nothing
  | cons text rest ih =>
      have first := infix_quotedChars_iff text.toList
      have comma : ',' ∉ manifestPlaceholder.toList := notMem_placeholder (by decide)
      cases rest with
      | nil =>
          simpa [Json.compactItems, Json.compactChars, HoldsPlaceholder, Text.Occurs] using first
      | cons next later =>
          rw [List.map_cons, List.map_cons, Json.compactItems, ← List.map_cons,
            Text.infix_append_cons_iff comma,
            Json.compactChars, first]
          exact (or_congr_right ih).trans
            (List.exists_mem_cons_iff HoldsPlaceholder text (next :: later)).symm

/-- A list of literals holds the placeholder just when one of its texts does. -/
theorem infix_strs_compact_iff (texts : List String) :
    manifestPlaceholder.toList <:+: (Json.strs texts).compact.toList ↔
      ∃ text ∈ texts, HoldsPlaceholder text := by
  rw [Json.compact, String.toList_ofList, Json.strs, Json.compactChars,
    ← List.nil_append ('[' :: _),
    infix_between_iff (by decide) (by decide) List.not_mem_nil List.not_mem_nil,
    infix_compactItems_iff]

/-! ## Programs -/

theorem holdsPlaceholder_lines_iff {texts : List String} :
    HoldsPlaceholder (Statement.lines texts) ↔ ∃ text ∈ texts, HoldsPlaceholder text := by
  induction texts with
  | nil =>
      have nothing : ¬HoldsPlaceholder (Statement.lines []) :=
        not_holdsPlaceholder_of_bytes (by decide)
      simpa using nothing
  | cons text rest ih =>
      rw [HoldsPlaceholder, Text.Occurs, Text.toList_lines_cons,
        Text.infix_append_cons_iff (notMem_placeholder (by decide))]
      exact (or_congr_right ih).trans (List.exists_mem_cons_iff HoldsPlaceholder text rest).symm

namespace Statement

theorem holdsPlaceholder_text_iff (statement : Statement) :
    HoldsPlaceholder statement.text ↔ ∃ line ∈ statement.written, HoldsPlaceholder line.text := by
  rw [statement.text_eq_block, block, holdsPlaceholder_lines_iff]
  simp only [List.mem_map, exists_exists_and_eq_and]

end Statement

namespace Program

/-- Each statement ends its line, so the placeholder stands within one of them. -/
theorem holdsPlaceholder_text_iff (program : Program) :
    HoldsPlaceholder program.text ↔ ∃ statement ∈ program, HoldsPlaceholder statement.text := by
  rw [text_eq_block, Statement.block, holdsPlaceholder_lines_iff, written]
  simp only [List.mem_map, List.mem_flatMap, Statement.holdsPlaceholder_text_iff]
  constructor
  · rintro ⟨_, ⟨line, ⟨statement, stands, writes⟩, rfl⟩, holds⟩
    exact ⟨statement, stands, line, writes, holds⟩
  · rintro ⟨statement, stands, line, writes, holds⟩
    exact ⟨line.text, ⟨line, ⟨statement, stands, writes⟩, rfl⟩, holds⟩

variable (options : Options) (ruleSet : RuleSet) (fingerprint : String)

/-- What stands before the call that stores ahead the files of a build. -/
def beforeBuild : Program :=
  [.heading fingerprint, .importLibrary options.workboxUrl, .blank, .configure options.debug,
      .blank, .matchFunction, .blank, .skipWaitingOnMessage, .blank] ++
    lifecycle ruleSet ++ [.blank]

/-- What stands after this call. -/
def afterBuild : Program :=
  [.blank, .precacheUrls ruleSet.precache.urls] ++ routes [] 0 ruleSet.rules

/-- The text of a program in which this call has the argument given. -/
def textWith (files : String) : String :=
  (beforeBuild options ruleSet fingerprint).text ++
    ("workbox.precaching.precacheAndRoute(" ++ files ++ ");\n") ++ (afterBuild ruleSet).text

/-- What a policy decides of the text before this call, besides what it leaves out. -/
def textsBeforeBuild : List String :=
  options.workboxUrl ::
    if ruleSet.lifecycle.cleanupOutdatedCaches then ruleSet.declaredCacheNames else []

theorem text_ofRuleSet (build : ruleSet.includeBuildManifest = true) :
    (ofRuleSet options ruleSet fingerprint).text =
      textWith options ruleSet fingerprint manifestPlaceholder := by
  have statements : ofRuleSet options ruleSet fingerprint =
      beforeBuild options ruleSet fingerprint ++ .precacheBuild :: afterBuild ruleSet := by
    simp [ofRuleSet, beforeBuild, afterBuild, build, whenever]
  rw [statements, text_append, text_cons, textWith, String.append_assoc]
  rfl

end Program

namespace Statement

theorem holdsPlaceholder_heading {fingerprint : String} (hex : 'B' ∉ fingerprint.toList) :
    ¬HoldsPlaceholder (heading fingerprint).text := by
  apply not_infix_of_notMem
  have mark : 'B' ∉ "// swpolicy config ".toList := by decide
  change 'B' ∉ ("// swpolicy config " ++ fingerprint ++ "\n").toList
  rw [String.toList_append, String.toList_append, List.mem_append, List.mem_append]
  rintro ((early | inside) | last)
  · exact mark early
  · exact hex inside
  · exact absurd last (by decide)

theorem holdsPlaceholder_importLibrary (url : String) :
    HoldsPlaceholder (importLibrary url).text ↔ HoldsPlaceholder url := by
  have chars : (importLibrary url).text.toList =
      "importScripts".toList ++ '(' :: (Json.quotedChars url.toList ++ ')' :: [';', '\n']) := by
    change ("importScripts" ++ "(" ++ Json.quoted url ++ ");\n").toList = _
    simp only [String.toList_append, Json.quoted, String.toList_ofList]
    simp
  rw [HoldsPlaceholder, Text.Occurs, chars, infix_between_iff (by decide) (by decide)
    (by decide) (by decide), infix_quotedChars_iff]
  rfl

theorem holdsPlaceholder_configure (debug : Bool) : ¬HoldsPlaceholder (configure debug).text := by
  cases debug with
  | false => exact not_holdsPlaceholder_of_bytes (by decide)
  | true => exact not_holdsPlaceholder_of_bytes (by decide)

theorem holdsPlaceholder_declareCaches (names : List String) :
    HoldsPlaceholder (declareCaches names).text ↔ ∃ name ∈ names, HoldsPlaceholder name := by
  have chars : (declareCaches names).text.toList =
      "const DECLARED_CACHES =".toList ++
        ' ' :: ((Json.strs names).compact.toList ++ ';' :: ['\n']) := by
    change ("const DECLARED_CACHES =" ++ " " ++ (Json.strs names).compact ++ ";\n").toList = _
    simp only [String.toList_append]
    simp
  rw [HoldsPlaceholder, Text.Occurs, chars, infix_between_iff (by decide) (by decide)
    (by decide) (by decide), infix_strs_compact_iff]

/-- The placeholder is in none of the statements that no policy changes. -/
theorem not_holdsPlaceholder_fixed :
    ∀ statement ∈ [blank, matchFunction, skipWaitingOnMessage, skipWaitingOnInstall, claimClients,
      cleanupPrecache, cleanupCaches], ¬HoldsPlaceholder statement.text := by
  simp only [List.forall_mem_cons]
  refine ⟨?_, ?_, ?_, ?_, ?_, ?_, ?_, fun _ member => absurd member List.not_mem_nil⟩
  all_goals exact not_holdsPlaceholder_of_bytes (by decide +kernel)

end Statement

namespace Program

variable (options : Options) (ruleSet : RuleSet) {fingerprint : String}

/-- Before the call, the placeholder stands only where a policy writes it. -/
theorem holdsPlaceholder_beforeBuild_iff (hex : 'B' ∉ fingerprint.toList) :
    HoldsPlaceholder (beforeBuild options ruleSet fingerprint).text ↔
      ∃ text ∈ textsBeforeBuild options ruleSet, HoldsPlaceholder text := by
  obtain ⟨⟨skip, claim, cleanup⟩, -, -, -⟩ := ruleSet
  have fixed := Statement.not_holdsPlaceholder_fixed
  simp only [List.forall_mem_cons] at fixed
  rw [holdsPlaceholder_text_iff]
  cases skip <;> cases claim <;> cases cleanup <;>
    simp [beforeBuild, lifecycle, whenever, textsBeforeBuild, fixed,
      Statement.holdsPlaceholder_heading hex, Statement.holdsPlaceholder_importLibrary,
      Statement.holdsPlaceholder_configure, Statement.holdsPlaceholder_declareCaches]

end Program

/-! ## Putting the list in its place -/

namespace AssetManifest

variable {manifest : AssetManifest}

theorem bracket_compact (manifest : AssetManifest) :
    ∃ rest, manifest.toJson.compact.toList = '[' :: rest := by
  rw [Json.compact, String.toList_ofList, toJson, Json.compactChars]
  exact ⟨_, rfl⟩

/-- The list takes the first place for it, and all else stays. -/
theorem substitute_eq_ok (manifest : AssetManifest) {program : String}
    (holds : HoldsPlaceholder program) :
    ∃ before after, program = before ++ manifestPlaceholder ++ after ∧
      (∀ earlier later, program = earlier ++ manifestPlaceholder ++ later →
        before.length ≤ earlier.length) ∧
      manifest.substitute program = .ok (before ++ manifest.toJson.compact ++ after) := by
  obtain ⟨before, after, found⟩ := Text.exists_around?_of_infix holds
  refine ⟨String.ofList before, String.ofList after, ?_, ?_, ?_⟩
  · rw [← String.toList_inj, String.toList_append, String.toList_append, String.toList_ofList,
      String.toList_ofList]
    exact (Text.append_of_around? found).symm
  · intro earlier later whole
    have chars : program.toList =
        earlier.toList ++ manifestPlaceholder.toList ++ later.toList := by
      rw [whole, String.toList_append, String.toList_append]
    rw [String.length_ofList, ← String.length_toList]
    exact Text.length_le_of_around? found chars
  · rw [substitute, Text.replaceFirst?, found]
    rfl

section Call

variable (options : Options) (ruleSet : RuleSet) {fingerprint : String}

/-- The characters of a program up to the bracket of the call for the list. -/
def charsBeforeCall (fingerprint : String) : List Char :=
  (Program.beforeBuild options ruleSet fingerprint).text.toList ++
    "workbox.precaching.precacheAndRoute".toList

theorem toList_textWith (files : String) :
    (Program.textWith options ruleSet fingerprint files).toList =
      charsBeforeCall options ruleSet fingerprint ++
        '(' :: (files.toList ++ (");\n".toList ++ (Program.afterBuild ruleSet).text.toList)) := by
  have call : "workbox.precaching.precacheAndRoute(".toList =
      "workbox.precaching.precacheAndRoute".toList ++ ['('] := by decide
  simp only [Program.textWith, charsBeforeCall, String.toList_append, call, List.append_assoc,
    List.cons_append, List.nil_append]

theorem infix_charsBeforeCall_iff :
    manifestPlaceholder.toList <:+: charsBeforeCall options ruleSet fingerprint ↔
      HoldsPlaceholder (Program.beforeBuild options ruleSet fingerprint).text := by
  have newline : '\n' ∉ manifestPlaceholder.toList := notMem_placeholder (by decide)
  have call : ¬manifestPlaceholder.toList <:+: "workbox.precaching.precacheAndRoute".toList :=
    not_infix_of_notMem (by decide)
  have nothing : ¬manifestPlaceholder.toList <:+: [] := not_infix_of_notMem List.not_mem_nil
  obtain ⟨lines, ends⟩ : ∃ lines : String,
      (Program.beforeBuild options ruleSet fingerprint).text.toList = lines.toList ++ ['\n'] := by
    rw [Program.beforeBuild, Program.text_append, String.toList_append]
    exact ⟨_, rfl⟩
  rw [charsBeforeCall, HoldsPlaceholder, Text.Occurs, ends, List.append_assoc,
    List.singleton_append, Text.infix_append_cons_iff newline, Text.infix_append_cons_iff newline,
    or_iff_left call, or_iff_left nothing]

/-- The list becomes the argument of the call just when the placeholder is not in the text
before it. -/
theorem substitute_textWith_iff :
    manifest.substitute (Program.textWith options ruleSet fingerprint manifestPlaceholder) =
        .ok (Program.textWith options ruleSet fingerprint manifest.toJson.compact) ↔
      ¬HoldsPlaceholder (Program.beforeBuild options ruleSet fingerprint).text := by
  have bracket : '(' ∉ manifestPlaceholder.toList := notMem_placeholder (by decide)
  rw [← infix_charsBeforeCall_iff, substitute, Text.replaceFirst?, toList_textWith]
  constructor
  · intro filled occurs
    obtain ⟨first, rest, found⟩ := Text.exists_around?_of_infix occurs
    have whole := Text.append_of_around? found
    rw [Text.around?_append found _ placeholder_ne_nil] at filled
    have texts := congrArg String.toList (Except.ok.inj filled)
    obtain ⟨list, opens⟩ := bracket_compact manifest
    rw [toList_textWith, ← whole] at texts
    simp only [String.toList_append, String.toList_ofList, List.append_assoc] at texts
    have heads := List.append_cancel_left texts
    rw [opens, placeholder_chars.1] at heads
    exact absurd (List.cons.inj heads).1 (by decide)
  · intro unseen
    rw [Text.around?_of_notInfix placeholder_ne_nil bracket unseen]
    refine congrArg Except.ok (String.toList_inj.mp ?_)
    rw [toList_textWith]
    simp only [String.toList_append, String.toList_ofList, List.append_assoc,
      List.cons_append, List.nil_append]

/-- The call that is meant for the list is in every program that has one. -/
theorem holdsPlaceholder_textWith (fingerprint : String) :
    HoldsPlaceholder (Program.textWith options ruleSet fingerprint manifestPlaceholder) := by
  rw [HoldsPlaceholder, Text.Occurs, toList_textWith, ← List.singleton_append,
    ← List.append_assoc]
  exact (List.prefix_append _ _).isInfix.trans (List.suffix_append _ _).isInfix

end Call

end AssetManifest

/-- Every compiled program has a place for the list. -/
theorem Options.holdsPlaceholder_of_compile {options : Options} {pathnames : List String}
    {compilation : Compilation} (compiled : options.compile pathnames = .ok compilation) :
    HoldsPlaceholder compilation.program := by
  obtain ⟨ruleSet, planned, rfl⟩ := compile_eq_ok_iff.mp compiled
  obtain ⟨rules, -, -, same⟩ := plan_eq_ok_iff.mp planned
  have build : ruleSet.includeBuildManifest = true := same ▸ rfl
  simp only [compilationOf, Program.text_ofRuleSet options ruleSet _ build]
  exact AssetManifest.holdsPlaceholder_textWith _ _ _

/-- Where the list of files ends up.  The program of a policy has one call that is meant for it,
with the placeholder as its argument.  The list takes the place of the first placeholder in the
program, with all other characters unchanged, so it becomes the argument of the call just when
neither the URL of the library nor a declared cache has the placeholder in it, whatever else the
policy says. -/
theorem substitute_compiled_program {options : Options} {pathnames : List String}
    {compilation : Compilation} (compiled : options.compile pathnames = .ok compilation)
    (manifest : AssetManifest) :
    let program := Program.textWith options compilation.ruleSet compilation.fingerprint
    compilation.program = program manifestPlaceholder ∧
      (∃ before after, compilation.program = before ++ manifestPlaceholder ++ after ∧
        (∀ earlier later, compilation.program = earlier ++ manifestPlaceholder ++ later →
          before.length ≤ earlier.length) ∧
        manifest.substitute compilation.program =
          .ok (before ++ manifest.toJson.compact ++ after)) ∧
      (manifest.substitute compilation.program = .ok (program manifest.toJson.compact) ↔
        ∀ text ∈ Program.textsBeforeBuild options compilation.ruleSet,
          ¬HoldsPlaceholder text) := by
  have place := manifest.substitute_eq_ok (Options.holdsPlaceholder_of_compile compiled)
  obtain ⟨ruleSet, planned, rfl⟩ := Options.compile_eq_ok_iff.mp compiled
  obtain ⟨rules, -, -, same⟩ := Options.plan_eq_ok_iff.mp planned
  have build : ruleSet.includeBuildManifest = true := same ▸ rfl
  have text := Program.text_ofRuleSet options ruleSet (Fingerprint.of options ruleSet) build
  have hex := Sha256.notMem_hex (c := 'B') (by decide) (Fingerprint.text options ruleSet).toUTF8
  have unseen := Program.holdsPlaceholder_beforeBuild_iff options ruleSet hex
  simp only [Options.compilationOf, text] at place ⊢
  refine ⟨trivial, place, ?_⟩
  rw [AssetManifest.substitute_textWith_iff, Fingerprint.of, unseen]
  simp only [not_exists, not_and]

/-! ## The placeholder in a URL -/

/-- Options without recommended rules, for a library and a page. -/
def Options.library (workboxUrl page : String) : Options where
  preset := .disabled
  workboxUrl
  precacheFiles := [page]

/-- The rule set of these options. -/
def RuleSet.library (page : String) : RuleSet where
  lifecycle := ⟨true, true, true⟩
  includeBuildManifest := true
  precache := ⟨[.unversioned page]⟩
  rules := [{
    origin := .staticAssets
    matcher := .extensions []
    strategy := .cacheFirst
    cacheName := some "astro-static-assets"
    expiration := some ⟨none, some 86400⟩ }]

/-- A page with the placeholder in its URL does not get the list of files. -/
theorem substitute_compiled_program_page :
    ∃ compilation, (Options.library "/sw/workbox.js" "/self.__WB_MANIFEST").compile [] =
        .ok compilation ∧
      ∀ manifest : AssetManifest, manifest.substitute compilation.program =
        .ok (Program.textWith (.library "/sw/workbox.js" "/self.__WB_MANIFEST")
          compilation.ruleSet compilation.fingerprint manifest.toJson.compact) := by
  have planned : (Options.library "/sw/workbox.js" "/self.__WB_MANIFEST").plan [] =
      .ok (.library "/self.__WB_MANIFEST") := by decide +kernel
  have compiled := Options.compile_eq_ok_iff.mpr ⟨_, planned, rfl⟩
  refine ⟨_, compiled, ?_⟩
  intro manifest
  obtain ⟨-, -, exact⟩ := substitute_compiled_program compiled manifest
  apply exact.mpr
  have plain : (Program.textsBeforeBuild (.library "/sw/workbox.js" "/self.__WB_MANIFEST")
      (.library "/self.__WB_MANIFEST")).all fun text => !(Text.bytes text).contains 66 := by
    decide +kernel
  intro text member
  apply not_holdsPlaceholder_of_bytes
  simpa using List.all_eq_true.mp plain text member

/-- A library with the placeholder in its URL does: the list becomes a part of this URL, and the
call that is meant for the list goes without it. -/
theorem library_takes_list :
    ∃ compilation, (Options.library "/self.__WB_MANIFEST/workbox.js" "/").compile [] =
        .ok compilation ∧
      ∀ manifest : AssetManifest, manifest.substitute compilation.program ≠
        .ok (Program.textWith (.library "/self.__WB_MANIFEST/workbox.js" "/")
          compilation.ruleSet compilation.fingerprint manifest.toJson.compact) := by
  have planned : (Options.library "/self.__WB_MANIFEST/workbox.js" "/").plan [] =
      .ok (.library "/") := by decide +kernel
  refine ⟨_, Options.compile_eq_ok_iff.mpr ⟨_, planned, rfl⟩, ?_⟩
  intro manifest filled
  have text := Program.text_ofRuleSet (.library "/self.__WB_MANIFEST/workbox.js" "/")
    (.library "/") (Fingerprint.of (.library "/self.__WB_MANIFEST/workbox.js" "/") (.library "/"))
    rfl
  simp only [Options.compilationOf, text] at filled
  apply (AssetManifest.substitute_textWith_iff _ _).mp filled
  rw [Program.holdsPlaceholder_text_iff]
  refine ⟨.importLibrary "/self.__WB_MANIFEST/workbox.js", by simp [Program.beforeBuild,
    Options.library], ?_⟩
  rw [Statement.holdsPlaceholder_importLibrary]
  exact ⟨"/".toList, "/workbox.js".toList, by decide +kernel⟩

end CachePolicy
