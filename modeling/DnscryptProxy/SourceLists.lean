import DnscryptProxy.Cloaking
import DnscryptProxy.Registry
import Mathlib.Data.List.DropRight

/-! `parseV2`: the text of a source is a list of sections, each with the name of a server, a
description and stamps. A malformed section ends the list; a section without a valid stamp is
left out. The stamps of a section are tried in a random order.

* `sections_registered`: which servers are registered, whatever the order is. -/

namespace DnscryptProxy

/-! ## Texts -/

def splitFrom (sep : Text) : Nat → Text → Text → List Text
  | _, part, [] => [part.reverse]
  | skip + 1, part, _ :: text => splitFrom sep skip part text
  | 0, part, c :: text =>
    if sep.isPrefixOf (c :: text) then part.reverse :: splitFrom sep (sep.length - 1) [] text
    else splitFrom sep 0 (c :: part) text

/-- `strings.Split` with a separator that is not empty -/
def splitText (text sep : Text) : List Text := splitFrom sep 0 [] text

example : splitText "# a\n## b\n\n### c".toList "## ".toList =
    ["# a\n".toList, "b\n\n#".toList, "c".toList] := by decide

namespace Sources

/-- The fields of a source that `parseV2` reads. The field `prefix` of the program is called
`namePrefix` here, and the bytes are read as a text. -/
structure SourceText where
  urls : List Text
  namePrefix : Text
  text : Text
  deriving DecidableEq, Repr

/-- A registered server with the text that describes it. -/
structure DescribedServer extends RegisteredServer where
  description : Text
  deriving DecidableEq, Repr

/-- What `parseV2` returns. -/
structure ParsedV2 where
  registeredServers : List DescribedServer
  err : Option GoError
  deriving DecidableEq, Repr

/-- `rand.Shuffle` of the stamps, by the position of the section. -/
structure Shuffles where
  shuffle : Nat → List Text → List Text
  perm : ∀ i stampStrs, (shuffle i stampStrs).Perm stampStrs

def invalidFormat (source : SourceText) : GoError :=
  .plain ("Invalid format for source at [[" ++
    String.ofList (List.intercalate [' '] source.urls) ++ "]]")

def missingStamp (name : Text) : Text := "Missing stamp for server [".toList ++ name ++ "]".toList

def invalidStamp (stampStr : Text) (err : GoError) : Text :=
  "Invalid or unsupported stamp [".toList ++ stampStr ++ "]: ".toList ++ err.text.toList

/-- The line is taken for a stamp. -/
def isStampStr (subpart : Text) : Bool := "sdns:".toList.isPrefixOf subpart && 6 ≤ subpart.length

def readSubpart (read : List Text × Text) (subpart : Text) : List Text × Text :=
  let subpart := trimSpace subpart
  if isStampStr subpart then (read.1 ++ [subpart], read.2)
  else if subpart = [] || "//".toList.isPrefixOf subpart then read
  else (read.1, (if read.2 ≠ [] then read.2 ++ ['\n'] else read.2) ++ subpart)

section Parse

variable (lib : StampLibrary)

/-- The first stamp that is valid, and the errors for those before it. -/
def firstStamp : List Text → Option ServerStamp × List Text
  | [] => (none, [])
  | stampStr :: stampStrs =>
    match lib.newServerStampFromString stampStr with
    | .ok stamp => (some stamp, [])
    | .error e =>
      let (stamp, stampErrs) := firstStamp stampStrs
      (stamp, invalidStamp stampStr e :: stampErrs)

variable (source : SourceText) (shuffles : Shuffles)

def parsePart (i : Nat) (part : Text) : Except GoError (Option DescribedServer × List Text) :=
  match (trimSpace part).splitOn '\n' with
  | heading :: line :: lines =>
    let name := trimSpace heading
    if name = [] then .error (invalidFormat source)
    else
      let name := source.namePrefix ++ name
      let (stampStrs, description) := (line :: lines).foldl readSubpart ([], [])
      if stampStrs = [] then .ok (none, [missingStamp name])
      else
        let stampStrs := if stampStrs.length > 1 then shuffles.shuffle i stampStrs else stampStrs
        let (stamp, errs) := firstStamp lib stampStrs
        .ok (stamp.map fun stamp => ⟨⟨name, stamp⟩, description⟩, errs)
  | _ => .error (invalidFormat source)

def parseParts (i : Nat) (stampErrs : List Text) : List Text → ParsedV2
  | [] =>
    ⟨[], if stampErrs ≠ [] then
        some (.plain (String.ofList (List.intercalate ", ".toList stampErrs)))
      else none⟩
  | part :: parts =>
    match parsePart lib source shuffles i part with
    | .error e => ⟨[], some e⟩
    | .ok (server, errs) =>
      let rest := parseParts (i + 1) (stampErrs ++ errs) parts
      { rest with registeredServers := server.toList ++ rest.registeredServers }

def parseV2 : ParsedV2 :=
  match splitText source.text "## ".toList with
  | _ :: part :: parts => parseParts lib source shuffles 0 [] (part :: parts)
  | _ => ⟨[], some (invalidFormat source)⟩

/-- What `updateRegisteredServers` looks at. -/
def parse : ParsedSource :=
  ⟨(parseV2 lib source shuffles).registeredServers.map (·.toRegisteredServer),
    (parseV2 lib source shuffles).err⟩

end Parse

/-! ## Sections -/

/-- The sections of a text, after whatever stands before the first. -/
def sections (text : Text) : List Text := (splitText text "## ".toList).drop 1

def sectionLines (part : Text) : List Text := (trimSpace part).splitOn '\n'

/-- The section has at least two lines. -/
def wellFormed (part : Text) : Bool := 2 ≤ (sectionLines part).length

/-- The name that a section gives. -/
def sectionName (part : Text) : Text := trimSpace ((sectionLines part).headD [])

/-- The lines of a section that are taken for stamps. -/
def stampLines (part : Text) : List Text :=
  (((sectionLines part).drop 1).map trimSpace).filter isStampStr

/-- The stamps among them that are valid. -/
def validStamps (lib : StampLibrary) (part : Text) : List ServerStamp :=
  (stampLines part).filterMap fun stampStr => (lib.newServerStampFromString stampStr).toOption

/-- What is registered for a section. -/
structure Registers (lib : StampLibrary) (source : SourceText) (part : Text)
    (server : DescribedServer) : Prop where
  name : server.name = source.namePrefix ++ sectionName part
  stamp : server.stamp ∈ validStamps lib part

section Sections

variable {lib : StampLibrary} {source : SourceText} {shuffles : Shuffles} {part : Text}

theorem not_isSpace_of_trimSpace {text rest : Text} {c : Char} (h : trimSpace text = c :: rest) :
    isSpace c = false := by
  obtain ⟨removed, hleft⟩ : trimSpace text <+: text.dropWhile isSpace :=
    List.rdropWhile_prefix isSpace _
  rw [h, List.cons_append] at hleft
  have hnot := List.head_dropWhile_not (p := isSpace) (l := text) (by rw [← hleft]; simp)
  simpa only [← hleft, List.head_cons] using hnot

theorem trimSpace_cons_ne_nil {text : Text} {c : Char} (h : isSpace c = false) :
    trimSpace (c :: text) ≠ [] := by
  intro hnil
  have hkept : (c :: text).dropWhile isSpace = c :: text := by
    rw [List.dropWhile_cons, h]
    rfl
  rw [trimSpace, hkept] at hnil
  have hall : ∀ d ∈ c :: text, isSpace d = true := List.rdropWhile_eq_nil_iff.mp hnil
  rw [hall c List.mem_cons_self] at h
  contradiction

theorem sectionName_ne_nil (h : wellFormed part = true) : sectionName part ≠ [] := by
  have hlines := of_decide_eq_true h
  unfold sectionName sectionLines at *
  cases htrim : trimSpace part with
  | nil =>
    rw [htrim] at hlines
    exact absurd hlines (by decide)
  | cons c rest =>
    have hc := not_isSpace_of_trimSpace htrim
    have hnewline : (c == '\n') = false := by
      rw [beq_eq_false_iff_ne]
      rintro rfl
      exact absurd hc (by decide)
    rw [List.splitOn, List.splitOnP_cons_eq_if_modifyHead, hnewline]
    cases hsplit : rest.splitOnP (· == '\n') with
    | nil => exact absurd hsplit (List.splitOnP_ne_nil _ _)
    | cons line lines => exact trimSpace_cons_ne_nil hc

theorem readSubpart_stamps (read : List Text × Text) (line : Text) :
    (readSubpart read line).1 = read.1 ++ [trimSpace line].filter isStampStr := by
  unfold readSubpart
  by_cases hstamp : isStampStr (trimSpace line) = true
  · rw [if_pos hstamp, List.filter_cons_of_pos hstamp]
    rfl
  · rw [if_neg hstamp, List.filter_cons_of_neg hstamp]
    split <;> exact (List.append_nil _).symm

theorem foldl_readSubpart (lines : List Text) (read : List Text × Text) :
    (lines.foldl readSubpart read).1 = read.1 ++ (lines.map trimSpace).filter isStampStr := by
  induction lines generalizing read with
  | nil => exact (List.append_nil _).symm
  | cons line lines ih =>
    rw [List.foldl_cons, ih, readSubpart_stamps, List.append_assoc, ← List.filter_append]
    rfl

theorem firstStamp_fst (stampStrs : List Text) : (firstStamp lib stampStrs).1 =
    (stampStrs.filterMap fun s => (lib.newServerStampFromString s).toOption).head? := by
  induction stampStrs with
  | nil => rfl
  | cons stampStr stampStrs ih =>
    unfold firstStamp
    cases hstamp : lib.newServerStampFromString stampStr with
    | ok stamp => rw [List.filterMap_cons, hstamp]; rfl
    | error e => rw [List.filterMap_cons, hstamp]; exact ih

theorem firstStamp_shuffled {tried stampStrs : List Text} (hperm : tried.Perm stampStrs)
    {valid : List ServerStamp}
    (hvalid : stampStrs.filterMap (fun s => (lib.newServerStampFromString s).toOption) = valid) :
    (valid = [] ∧ (firstStamp lib tried).1 = none) ∨
      ∃ stamp ∈ valid, (firstStamp lib tried).1 = some stamp := by
  have hsame := hperm.filterMap fun s => (lib.newServerStampFromString s).toOption
  rw [hvalid] at hsame
  rw [firstStamp_fst]
  generalize tried.filterMap _ = found at hsame ⊢
  cases found with
  | nil => exact .inl ⟨hsame.nil_eq.symm, rfl⟩
  | cons stamp found => exact .inr ⟨stamp, hsame.mem_iff.mp List.mem_cons_self, rfl⟩

theorem parsePart_malformed (i : Nat) (h : wellFormed part = false) :
    parsePart lib source shuffles i part = .error (invalidFormat source) := by
  have hlines := of_decide_eq_false h
  unfold sectionLines at hlines
  unfold parsePart
  rcases hsplit : (trimSpace part).splitOn '\n' with _ | ⟨heading, _ | ⟨line, lines⟩⟩
  · rfl
  · rfl
  · simp [hsplit] at hlines

variable (lib source shuffles) in
theorem parsePart_wellFormed (i : Nat) (h : wellFormed part = true) :
    ∃ server errs, parsePart lib source shuffles i part = .ok (server, errs) ∧
      ((validStamps lib part = [] ∧ server = none) ∨
        (validStamps lib part ≠ [] ∧ ∃ s, server = some s ∧ Registers lib source part s)) := by
  have hname := sectionName_ne_nil h
  have hlines := of_decide_eq_true h
  obtain ⟨heading, line, lines, hsplit⟩ :
      ∃ heading line lines, sectionLines part = heading :: line :: lines := by
    rcases hsplit : sectionLines part with _ | ⟨heading, _ | ⟨line, lines⟩⟩
    · simp [hsplit] at hlines
    · simp [hsplit] at hlines
    · exact ⟨heading, line, lines, rfl⟩
  have hheading : sectionName part = trimSpace heading := by rw [sectionName, hsplit]; rfl
  have hstamps : ((line :: lines).foldl readSubpart ([], [])).1 = stampLines part := by
    rw [foldl_readSubpart, stampLines, hsplit]
    rfl
  have hregisters (stamp : ServerStamp) (description : Text) (hstamp : stamp ∈ validStamps lib part) :
      Registers lib source part ⟨⟨source.namePrefix ++ trimSpace heading, stamp⟩, description⟩ :=
    ⟨by rw [hheading], hstamp⟩
  rw [sectionLines] at hsplit
  rw [hheading] at hname
  rw [parsePart, hsplit]
  dsimp only
  rw [if_neg hname]
  generalize (line :: lines).foldl readSubpart ([], []) = read at hstamps ⊢
  obtain ⟨stampStrs, description⟩ := read
  obtain rfl : stampStrs = stampLines part := hstamps
  by_cases hnone : stampLines part = []
  · rw [if_pos hnone]
    exact ⟨_, _, rfl, .inl ⟨by rw [validStamps, hnone]; rfl, rfl⟩⟩
  · rw [if_neg hnone]
    refine ⟨_, _, rfl, ?_⟩
    have hperm : (if (stampLines part).length > 1 then shuffles.shuffle i (stampLines part)
        else stampLines part).Perm (stampLines part) := by
      split
      · exact shuffles.perm i _
      · exact .refl _
    have hvalid : (stampLines part).filterMap
        (fun s => (lib.newServerStampFromString s).toOption) = validStamps lib part := rfl
    rcases firstStamp_shuffled hperm hvalid with ⟨hvalid, hfirst⟩ | ⟨stamp, hmem, hfirst⟩
    · exact .inl ⟨hvalid, by rw [hfirst]; rfl⟩
    · exact .inr ⟨List.ne_nil_of_mem hmem, _, by rw [hfirst]; rfl, hregisters stamp _ hmem⟩

theorem parseParts_registers (parts : List Text) (i : Nat) (stampErrs : List Text) :
    List.Forall₂ (Registers lib source)
      ((parts.takeWhile wellFormed).filter (validStamps lib · ≠ []))
      (parseParts lib source shuffles i stampErrs parts).registeredServers := by
  induction parts generalizing i stampErrs with
  | nil => exact .nil
  | cons part parts ih =>
    rw [parseParts]
    cases hformed : wellFormed part with
    | false =>
      rw [parsePart_malformed i hformed, List.takeWhile_cons, hformed]
      exact .nil
    | true =>
      obtain ⟨server, errs, hparse, hserver⟩ := parsePart_wellFormed lib source shuffles i hformed
      rw [hparse, List.takeWhile_cons, hformed, if_pos rfl]
      rcases hserver with ⟨hnone, rfl⟩ | ⟨hsome, server, rfl, hregisters⟩
      · rw [List.filter_cons_of_neg (by simpa using hnone)]
        exact ih _ _
      · rw [List.filter_cons_of_pos (by simpa using hsome)]
        exact .cons hregisters (ih _ _)

theorem parseV2_registers (lib : StampLibrary) (source : SourceText) (shuffles : Shuffles) :
    List.Forall₂ (Registers lib source)
      (((sections source.text).takeWhile wellFormed).filter (validStamps lib · ≠ []))
      (parseV2 lib source shuffles).registeredServers := by
  unfold parseV2 sections
  rcases splitText source.text "## ".toList with _ | ⟨before, _ | ⟨part, parts⟩⟩
  · exact .nil
  · exact .nil
  · exact parseParts_registers (part :: parts) 0 []

theorem names_of_registers {parts : List Text} {servers : List DescribedServer}
    (h : List.Forall₂ (Registers lib source) parts servers) :
    servers.map (·.name) = parts.map fun part => source.namePrefix ++ sectionName part := by
  induction h with
  | nil => rfl
  | cons hregisters _ ih => rw [List.map_cons, List.map_cons, ih, hregisters.name]

variable (lib source shuffles) in
theorem parse_names : (parse lib source shuffles).registeredServers.map (·.name) =
    (((sections source.text).takeWhile wellFormed).filter (validStamps lib · ≠ [])).map
      fun part => source.namePrefix ++ sectionName part := by
  rw [← names_of_registers (parseV2_registers lib source shuffles), parse, List.map_map]
  rfl

end Sections

/-- For every text and every order in which the stamps are tried: the sections before the first
malformed one that have a valid stamp are registered, in order and with one of their stamps. The
names do not depend on the orders. -/
theorem sections_registered (lib : StampLibrary) (source : SourceText) (shuffles : Shuffles) :
    List.Forall₂ (Registers lib source)
        (((sections source.text).takeWhile wellFormed).filter (validStamps lib · ≠ []))
        (parseV2 lib source shuffles).registeredServers ∧
      (∀ shuffles', (parse lib source shuffles').registeredServers.map (·.name) =
        (parse lib source shuffles).registeredServers.map (·.name)) ∧
      ∀ part ∈ (sections source.text).takeWhile wellFormed, ∀ stampStr ∈ stampLines part,
        (∃ stamp, lib.newServerStampFromString stampStr = .ok stamp) →
          ∃ server ∈ (parse lib source shuffles).registeredServers,
            server.name = source.namePrefix ++ sectionName part := by
  refine ⟨parseV2_registers lib source shuffles, fun shuffles' => ?_, ?_⟩
  · rw [parse_names, parse_names]
  · rintro part hpart stampStr hstampStr ⟨stamp, hstamp⟩
    have hvalid : stamp ∈ validStamps lib part :=
      List.mem_filterMap.mpr ⟨stampStr, hstampStr, by rw [hstamp]; rfl⟩
    have hfiltered : part ∈
        ((sections source.text).takeWhile wellFormed).filter (validStamps lib · ≠ []) :=
      List.mem_filter.mpr ⟨hpart, decide_eq_true (List.ne_nil_of_mem hvalid)⟩
    have hname := List.mem_map_of_mem hfiltered
      (f := fun part => source.namePrefix ++ sectionName part)
    rw [← parse_names lib source shuffles] at hname
    exact List.mem_map.mp hname

namespace Sample

open DnscryptProxy.Sample (stamps dnscryptText relayText)

def listText : SourceText where
  urls := []
  namePrefix := "public-".toList
  text := "# List\n## one\nsdns://AA\n".toList ++ dnscryptText ++
    "\n## two\n//\n## three\n## four\n".toList ++ relayText

example : (parse stamps listText ⟨fun _ => List.reverse, fun _ => List.reverse_perm⟩
    ).registeredServers.map (·.name) = ["public-one".toList] := by
  decide +kernel

end Sample

end Sources

end DnscryptProxy
