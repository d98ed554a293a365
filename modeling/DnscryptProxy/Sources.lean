import DnscryptProxy.Message

/-! `sources.go`: the lists of servers that are downloaded, checked against a signature and
kept in two cache files. A `History` is any sequence of calls of `fetchWithCache` on one
source, with any changes of the files from outside between them.

* `contents_verified`: what a source holds in memory is always empty or verified.
* `download_cached_iff`: when a download ends up in the cache files. -/

namespace DnscryptProxy.Sources

/-! ## Signatures and files -/

/-- The package `minisign`. -/
structure Minisign (Signature : Type) where
  decodeSignature : Bytes → Except GoError Signature
  verify : Bytes → Bytes → Signature → Except GoError Bool

/-- The cache file, with the time of its last modification, and the file with its
signature. -/
structure CacheFiles where
  file : Option (Bytes × Time)
  minisig : Option Bytes
  deriving DecidableEq, Repr

/-- The errors that the operating system reports during one call, by operation. -/
structure FileErrors where
  readFile : Option GoError
  readSig : Option GoError
  stat : Option GoError
  createFile : Option GoError
  createSig : Option GoError
  writeFile : Option GoError
  writeSig : Option GoError
  commitFile : Option GoError
  commitSig : Option GoError
  chtimes : Option GoError
  deriving DecidableEq, Repr

def FileErrors.none : FileErrors :=
  ⟨Option.none, Option.none, Option.none, Option.none, Option.none, Option.none, Option.none,
    Option.none, Option.none, Option.none⟩

/-- What a URL gives for the list and what it gives for the signature. -/
structure Download where
  bin : Except GoError Bytes
  sig : Except GoError Bytes

/-- What one call of `fetchWithCache` learns from outside. -/
structure FetchEnv where
  now : Time
  errors : FileErrors
  /-- The time of modification of a file that is committed. -/
  commitTime : Time
  /-- By the position of the URL in the list. -/
  downloads : Nat → Download

def notExist : GoError := .plain "no such file or directory"

/-- An operation on a file that may be missing. -/
def onFile {α : Type} (err : Option GoError) (contents : Option α) : Except GoError α :=
  match err, contents with
  | some e, _ => .error e
  | none, some a => .ok a
  | none, none => .error notExist

/-! ## Sources -/

def minimumPrefetchInterval : Time := 10 * 60 * second

/-- A source. The field `in` of the program is called `in_` here. -/
structure Source where
  urls : List Text
  in_ : Bytes
  minisignKey : Bytes
  cacheTTL : Time
  prefetchDelay : Time
  refresh : Option Time
  deriving DecidableEq, Repr

/-- A source and its cache files. -/
structure SourceState where
  source : Source
  files : CacheFiles
  deriving DecidableEq, Repr

section Fetch

variable {Signature : Type} (m : Minisign Signature)

/-- The answer `Verify` gives besides its error is not looked at. -/
def checkSignature (minisignKey bin sig : Bytes) : Option GoError :=
  match m.decodeSignature sig with
  | .error e => some e
  | .ok signature =>
    match m.verify minisignKey bin signature with
    | .error e => some e
    | .ok _ => none

/-- `fetchFromCache`, with the source it leaves, the delay and the error. -/
def fetchFromCache (source : Source) (files : CacheFiles) (env : FetchEnv) :
    Source × Time × Option GoError :=
  match onFile env.errors.readFile (files.file.map Prod.fst) with
  | .error e => (source, 0, some e)
  | .ok bin =>
    match onFile env.errors.readSig files.minisig with
    | .error e => (source, 0, some e)
    | .ok sig =>
      match checkSignature m source.minisignKey bin sig with
      | some e => (source, 0, some e)
      | none =>
        let source := { source with in_ := bin }
        match onFile env.errors.stat (files.file.map Prod.snd) with
        | .error e => (source, 0, some e)
        | .ok modTime =>
          let elapsed := env.now - modTime
          (source, if elapsed < source.cacheTTL then source.prefetchDelay - elapsed else 0, none)

/-- Both files are written to temporary ones and put in place one after the other. -/
def writeSource (files : CacheFiles) (env : FetchEnv) (bin sig : Bytes) :
    CacheFiles × Option GoError :=
  let e := env.errors
  match [e.createFile, e.createSig, e.writeFile, e.writeSig, e.commitFile].findSome? id with
  | some err => (files, some err)
  | none =>
    let files := { files with file := some (bin, env.commitTime) }
    match e.commitSig with
    | some err => (files, some err)
    | none => ({ files with minisig := some sig }, none)

/-- `os.Chtimes`, which fails when there is no file. -/
def chtimes (files : CacheFiles) (env : FetchEnv) : CacheFiles :=
  match onFile env.errors.chtimes files.file with
  | .error _ => files
  | .ok (bin, _) => { files with file := some (bin, env.now) }

def writeToCache (source : Source) (files : CacheFiles) (env : FetchEnv) (bin sig : Bytes) :
    SourceState :=
  let (files, writeErr) := if source.in_ ≠ bin then writeSource files env bin sig else (files, none)
  ⟨{ source with in_ := bin }, if writeErr.isSome then files else chtimes files env⟩

/-- The variables of the loop over the URLs. -/
structure Loaded where
  bin : Bytes
  sig : Bytes
  err : Option GoError
  deriving DecidableEq, Repr

/-- The loop over the URLs, from position `i` on. -/
def tryURLs (minisignKey : Bytes) (env : FetchEnv) (i : Nat) (loaded : Loaded) :
    List Text → Loaded
  | [] => loaded
  | _ :: urls =>
    match (env.downloads i).bin with
    | .error e => tryURLs minisignKey env (i + 1) { loaded with bin := [], err := some e } urls
    | .ok bin =>
      match (env.downloads i).sig with
      | .error e => tryURLs minisignKey env (i + 1) ⟨bin, [], some e⟩ urls
      | .ok sig =>
        match checkSignature m minisignKey bin sig with
        | none => ⟨bin, sig, none⟩
        | some e => tryURLs minisignKey env (i + 1) ⟨bin, sig, some e⟩ urls

/-- The deferred function of `fetchWithCache`. -/
def SourceState.schedule (st : SourceState) (env : FetchEnv) (delay : Time) : SourceState :=
  { st with source.refresh := some (env.now + delay) }

def fetchWithCache (st : SourceState) (env : FetchEnv) : SourceState × Time × Option GoError :=
  let (source, delay, err) := fetchFromCache m st.source st.files env
  let st := { st with source := source }
  if source.urls = [] then (st, delay, err)
  else if delay > 0 then (st.schedule env delay, delay, err)
  else
    let loaded := tryURLs m source.minisignKey env 0 ⟨[], [], err⟩ source.urls
    match loaded.err with
    | some e => (st.schedule env minimumPrefetchInterval, minimumPrefetchInterval, some e)
    | none =>
      let st := writeToCache source st.files env loaded.bin loaded.sig
      (st.schedule env source.prefetchDelay, source.prefetchDelay, none)

/-! ## What a call can do -/

/-- The two files verify under the key, and the first one holds `bin`. -/
def CacheFiles.Holds (files : CacheFiles) (minisignKey bin : Bytes) : Prop :=
  ∃ modTime sig, files.file = some (bin, modTime) ∧ files.minisig = some sig ∧
    checkSignature m minisignKey bin sig = none

/-- The two files verify under the key. -/
def CacheFiles.Verify (files : CacheFiles) (minisignKey : Bytes) : Prop :=
  ∃ bin, files.Holds m minisignKey bin

/-- The call does not get by with the cache, and the loop over the URLs ends with a list and
a signature that verify. -/
def Downloads (st : SourceState) (env : FetchEnv) (bin sig : Bytes) : Prop :=
  st.source.urls ≠ [] ∧ (fetchFromCache m st.source st.files env).2.1 ≤ 0 ∧
    tryURLs m st.source.minisignKey env 0
      ⟨[], [], (fetchFromCache m st.source st.files env).2.2⟩ st.source.urls = ⟨bin, sig, none⟩

instance (st : SourceState) (env : FetchEnv) (bin sig : Bytes) :
    Decidable (Downloads m st env bin sig) :=
  inferInstanceAs (Decidable (_ ∧ _ ∧ _))

theorem onFile_ok {α : Type} {err : Option GoError} {contents : Option α} {a : α}
    (h : onFile err contents = .ok a) : err = none ∧ contents = some a := by
  cases err <;> cases contents <;> simp_all [onFile]

theorem fetchFromCache_cases (source : Source) (files : CacheFiles) (env : FetchEnv) :
    (fetchFromCache m source files env).1 = source ∧
        ((fetchFromCache m source files env).2.2 ≠ none) ∨
      ∃ bin, files.Holds m source.minisignKey bin ∧
        (fetchFromCache m source files env).1 = { source with in_ := bin } := by
  rw [fetchFromCache]
  split
  · exact .inl ⟨rfl, nofun⟩
  next bin hbin =>
    split
    · exact .inl ⟨rfl, nofun⟩
    next sig hsig =>
      split
      · exact .inl ⟨rfl, nofun⟩
      next hcheck =>
        obtain ⟨⟨_, modTime⟩, hfile, rfl⟩ := Option.map_eq_some_iff.mp (onFile_ok hbin).2
        refine .inr ⟨_, ⟨modTime, sig, hfile, (onFile_ok hsig).2, hcheck⟩, ?_⟩
        split <;> rfl

theorem fetchFromCache_source (source : Source) (files : CacheFiles) (env : FetchEnv) :
    (fetchFromCache m source files env).1 =
      { source with in_ := (fetchFromCache m source files env).1.in_ } := by
  obtain ⟨h, -⟩ | ⟨bin, -, h⟩ := fetchFromCache_cases m source files env <;> rw [h]

@[simp]
theorem fetchFromCache_urls (source : Source) (files : CacheFiles) (env : FetchEnv) :
    (fetchFromCache m source files env).1.urls = source.urls := by
  rw [fetchFromCache_source]

@[simp]
theorem fetchFromCache_minisignKey (source : Source) (files : CacheFiles) (env : FetchEnv) :
    (fetchFromCache m source files env).1.minisignKey = source.minisignKey := by
  rw [fetchFromCache_source]

variable {source : Source} {files : CacheFiles} {env : FetchEnv} {bin sig : Bytes}
  {st : SourceState}

theorem fetchFromCache_holds (herr : env.errors = FileErrors.none)
    (h : files.Holds m source.minisignKey bin) :
    (fetchFromCache m source files env).1.in_ = bin ∧
      (fetchFromCache m source files env).2.2 = none := by
  obtain ⟨modTime, sig, hfile, hsig, hcheck⟩ := h
  simp [fetchFromCache, herr, FileErrors.none, hfile, hsig, hcheck, onFile]

theorem fetchFromCache_unverified (h : ¬ files.Verify m source.minisignKey) :
    (fetchFromCache m source files env).1 = source := by
  obtain ⟨hkept, -⟩ | ⟨bin, hholds, -⟩ := fetchFromCache_cases m source files env
  · exact hkept
  · exact absurd ⟨bin, hholds⟩ h

theorem tryURLs_ok {minisignKey : Bytes} {urls : List Text} {i : Nat} {loaded : Loaded}
    (hurls : urls ≠ [] ∨ loaded.err ≠ none)
    (h : tryURLs m minisignKey env i loaded urls = ⟨bin, sig, none⟩) :
    checkSignature m minisignKey bin sig = none ∧
      ∃ j, (env.downloads j).bin = .ok bin ∧ (env.downloads j).sig = .ok sig := by
  induction urls generalizing i loaded with
  | nil =>
    simp_all [tryURLs]
  | cons url urls ih =>
    rw [tryURLs] at h
    split at h
    · exact ih (.inr (Option.some_ne_none _)) h
    next b hb =>
      split at h
      · exact ih (.inr (Option.some_ne_none _)) h
      next s hs =>
        split at h
        next hcheck =>
          obtain ⟨rfl, rfl, -⟩ := (Loaded.mk.injEq ..).mp h
          exact ⟨hcheck, i, hb, hs⟩
        · exact ih (.inr (Option.some_ne_none _)) h

theorem Downloads.verified (h : Downloads m st env bin sig) :
    checkSignature m st.source.minisignKey bin sig = none ∧
      ∃ j, (env.downloads j).bin = .ok bin ∧ (env.downloads j).sig = .ok sig :=
  tryURLs_ok m (.inl h.1) h.2.2

theorem fetchWithCache_downloads (h : Downloads m st env bin sig) :
    (fetchWithCache m st env).1 =
      (writeToCache (fetchFromCache m st.source st.files env).1 st.files env bin sig).schedule env
        (fetchFromCache m st.source st.files env).1.prefetchDelay := by
  obtain ⟨hurls, hdelay, hloaded⟩ := h
  simp [fetchWithCache, hurls, hdelay.not_gt, hloaded]

theorem fetchWithCache_cached (h : ∀ bin sig, ¬ Downloads m st env bin sig) :
    ∃ refresh, (fetchWithCache m st env).1 =
      ⟨{ (fetchFromCache m st.source st.files env).1 with refresh := refresh }, st.files⟩ := by
  by_cases hurls : st.source.urls = []
  · refine ⟨(fetchFromCache m st.source st.files env).1.refresh, ?_⟩
    have hnone : (fetchFromCache m st.source st.files env).1.urls = [] := by simp [hurls]
    simp only [fetchWithCache, if_pos hnone]
  by_cases hdelay : (fetchFromCache m st.source st.files env).2.1 > 0
  · exact ⟨_, by simp [fetchWithCache, hurls, hdelay, SourceState.schedule]; rfl⟩
  generalize hloaded : tryURLs m st.source.minisignKey env 0
    ⟨[], [], (fetchFromCache m st.source st.files env).2.2⟩ st.source.urls = loaded
  obtain ⟨bin, sig, err⟩ := loaded
  cases err with
  | none => exact absurd ⟨hurls, not_lt.mp hdelay, hloaded⟩ (h bin sig)
  | some e => exact ⟨_, by simp [fetchWithCache, hurls, hdelay, hloaded, SourceState.schedule]; rfl⟩

theorem fetchWithCache_source (st : SourceState) (env : FetchEnv) :
    (fetchWithCache m st env).1.source.minisignKey = st.source.minisignKey ∧
      (fetchWithCache m st env).1.source.urls = st.source.urls := by
  by_cases h : ∃ bin sig, Downloads m st env bin sig
  · obtain ⟨bin, sig, h⟩ := h
    simp [fetchWithCache_downloads m h, writeToCache, SourceState.schedule]
  · obtain ⟨refresh, hst⟩ := fetchWithCache_cached m fun bin sig hd => h ⟨bin, sig, hd⟩
    simp [hst]

@[simp]
theorem fetchWithCache_minisignKey (st : SourceState) (env : FetchEnv) :
    (fetchWithCache m st env).1.source.minisignKey = st.source.minisignKey :=
  (fetchWithCache_source m st env).1

/-! ## Histories -/

/-- A call: the files it finds and what it learns from outside. -/
structure Call where
  files : CacheFiles
  env : FetchEnv

/-- `bin` and `sig` are read from the two files, or downloaded from one URL, in the call. -/
def Call.Offers (call : Call) (bin sig : Bytes) : Prop :=
  (∃ modTime, call.files.file = some (bin, modTime) ∧ call.files.minisig = some sig) ∨
    ∃ i, (call.env.downloads i).bin = .ok bin ∧ (call.env.downloads i).sig = .ok sig

/-- The calls made on one source, the latest one first. Between two calls the files may
change in any way. -/
inductive History (init : SourceState) : List Call → SourceState → Prop
  | start : History init [] init
  | call {calls : List Call} {st : SourceState} (env : FetchEnv) (h : History init calls st) :
      History init (⟨st.files, env⟩ :: calls) (fetchWithCache m st env).1
  | changed {calls : List Call} {st : SourceState} (files : CacheFiles)
      (h : History init calls st) : History init calls ⟨st.source, files⟩

/-- `bin` is empty, or one of the calls found it with a signature that verifies. -/
def Vouched (minisignKey : Bytes) (calls : List Call) (bin : Bytes) : Prop :=
  bin = [] ∨ ∃ sig, checkSignature m minisignKey bin sig = none ∧
    ∃ call ∈ calls, call.Offers bin sig

namespace Sample

/-- A signature is the key followed by what is signed. -/
def minisign : Minisign Bytes where
  decodeSignature sig := if sig = [] then .error (.plain "Incomplete encoded signature") else .ok sig
  verify key bin signature :=
    if signature = key ++ bin then .ok true else .error (.plain "Invalid signature")

/-- A source that was just made, and no file. -/
def fresh : SourceState where
  source :=
    { urls := ["https://lists/resolvers.md".toList], in_ := [], minisignKey := [7],
      cacheTTL := 24 * 3600 * second, prefetchDelay := 24 * 3600 * second, refresh := none }
  files := ⟨none, none⟩

def served (now : Time) : FetchEnv where
  now := now
  errors := FileErrors.none
  commitTime := now
  downloads _ := ⟨.ok [1], .ok [7, 1]⟩

def downloaded : SourceState := (fetchWithCache minisign fresh (served 0)).1

/-- The cache file was overwritten by something else. -/
def corrupted : SourceState := { downloaded with files.file := some ([2], 0) }

end Sample

variable {m} {calls : List Call}

theorem Vouched.later {minisignKey : Bytes} (call : Call) (h : Vouched m minisignKey calls bin) :
    Vouched m minisignKey (call :: calls) bin := by
  refine h.imp_right ?_
  rintro ⟨sig, hcheck, earlier, hmem, hoffers⟩
  exact ⟨sig, hcheck, earlier, .tail _ hmem, hoffers⟩

theorem Vouched.fetchFromCache (h : Vouched m source.minisignKey calls source.in_)
    (files : CacheFiles) (env : FetchEnv) :
    Vouched m source.minisignKey (⟨files, env⟩ :: calls)
      (fetchFromCache m source files env).1.in_ := by
  obtain ⟨hkept, -⟩ | ⟨bin, ⟨modTime, sig, hfile, hsig, hcheck⟩, htaken⟩ :=
    fetchFromCache_cases m source files env
  · rw [hkept]
    exact h.later _
  · rw [htaken]
    exact .inr ⟨sig, hcheck, _, .head _, .inl ⟨modTime, hfile, hsig⟩⟩

theorem Vouched.fetchWithCache (h : Vouched m st.source.minisignKey calls st.source.in_)
    (env : FetchEnv) :
    Vouched m st.source.minisignKey (⟨st.files, env⟩ :: calls)
      (fetchWithCache m st env).1.source.in_ := by
  by_cases hd : ∃ bin sig, Downloads m st env bin sig
  · obtain ⟨bin, sig, hd⟩ := hd
    obtain ⟨hcheck, i, hdownload⟩ := hd.verified
    rw [fetchWithCache_downloads m hd]
    exact .inr ⟨sig, hcheck, _, .head _, .inr ⟨i, hdownload⟩⟩
  · obtain ⟨refresh, hst⟩ := fetchWithCache_cached m fun bin sig hd' => hd ⟨bin, sig, hd'⟩
    rw [hst]
    exact h.fetchFromCache st.files env

/-- Whatever was done with a source that started empty, its list is empty or one that a call
found with a signature that verifies, between the calls and, during the next one, after
`fetchFromCache` has taken over a list. -/
theorem contents_verified {init st : SourceState} {calls : List Call} (hinit : init.source.in_ = [])
    (h : History m init calls st) :
    Vouched m init.source.minisignKey calls st.source.in_ ∧
      ∀ env, Vouched m init.source.minisignKey (⟨st.files, env⟩ :: calls)
        (fetchFromCache m st.source st.files env).1.in_ := by
  have hbetween : st.source.minisignKey = init.source.minisignKey ∧
      Vouched m st.source.minisignKey calls st.source.in_ := by
    induction h with
    | start => exact ⟨rfl, .inl hinit⟩
    | call env _ ih =>
      rw [fetchWithCache_minisignKey]
      exact ⟨ih.1, ih.2.fetchWithCache env⟩
    | changed _ _ ih => exact ih
  rw [← hbetween.1]
  exact ⟨hbetween.2, hbetween.2.fetchFromCache st.files⟩

/-- A list is downloaded, the file is overwritten, and it is downloaded again. -/
theorem Sample.list_vouched_after_corruption :
    History minisign fresh [⟨corrupted.files, served 1⟩, ⟨fresh.files, served 0⟩]
        (fetchWithCache minisign corrupted (served 1)).1 ∧
      (fetchWithCache minisign corrupted (served 1)).1.source.in_ = [1] ∧
      Vouched minisign [7] [⟨corrupted.files, served 1⟩, ⟨fresh.files, served 0⟩] [1] := by
  have h : History minisign fresh [⟨corrupted.files, served 1⟩, ⟨fresh.files, served 0⟩]
      (fetchWithCache minisign corrupted (served 1)).1 :=
    .call (served 1) (.changed corrupted.files (.call (served 0) .start))
  have hin : (fetchWithCache minisign corrupted (served 1)).1.source.in_ = [1] := by decide
  exact ⟨h, hin, hin ▸ (contents_verified rfl h).1⟩

/-! ## What a download leaves in the cache -/

theorem writeSource_ok (herr : env.errors = FileErrors.none) (bin sig : Bytes) :
    writeSource files env bin sig = (⟨some (bin, env.commitTime), some sig⟩, none) := by
  simp [writeSource, herr, FileErrors.none]

theorem chtimes_holds (files : CacheFiles) (env : FetchEnv) (minisignKey bin : Bytes) :
    (chtimes files env).Holds m minisignKey bin ↔ files.Holds m minisignKey bin := by
  obtain ⟨file, minisig⟩ := files
  unfold chtimes
  split
  · rfl
  next hfile =>
    obtain ⟨-, rfl⟩ := onFile_ok hfile
    simp [CacheFiles.Holds]

theorem writeToCache_holds (herr : env.errors = FileErrors.none)
    (hcheck : checkSignature m source.minisignKey bin sig = none) :
    (writeToCache source files env bin sig).files.Holds m source.minisignKey bin ↔
      source.in_ ≠ bin ∨ files.Holds m source.minisignKey bin := by
  by_cases hin : source.in_ = bin
  · simp [writeToCache, hin, chtimes_holds]
  · have hwritten : (⟨some (bin, env.commitTime), some sig⟩ : CacheFiles).Holds m source.minisignKey
        bin := ⟨env.commitTime, sig, rfl, rfl, hcheck⟩
    simp [writeToCache, hin, writeSource_ok herr, chtimes_holds, hwritten]

theorem fetchWithCache_holds (herr : env.errors = FileErrors.none)
    (h : Downloads m st env bin sig) :
    (fetchWithCache m st env).1.files.Holds m st.source.minisignKey bin ↔
      (fetchFromCache m st.source st.files env).1.in_ ≠ bin ∨
        st.files.Holds m st.source.minisignKey bin := by
  have hcheck := h.verified.1
  rw [fetchWithCache_downloads m h]
  rw [← fetchFromCache_minisignKey m st.source st.files env] at hcheck ⊢
  exact writeToCache_holds herr hcheck

/-- A call that downloads leaves the download in the files, where the next call finds it,
except where the list is the one in memory already and the files do not verify. -/
theorem download_cached_iff {st : SourceState} {env : FetchEnv} {bin sig : Bytes}
    (herr : env.errors = FileErrors.none) (h : Downloads m st env bin sig) :
    ((fetchWithCache m st env).1.files.Holds m st.source.minisignKey bin ∧
        ∀ next : FetchEnv, next.errors = FileErrors.none →
          let st' := (fetchWithCache m st env).1
          (fetchFromCache m st'.source st'.files next).1.in_ = bin ∧
            (fetchFromCache m st'.source st'.files next).2.2 = none) ↔
      ¬ (st.source.in_ = bin ∧ ¬ st.files.Verify m st.source.minisignKey) := by
  have hnext (hholds : (fetchWithCache m st env).1.files.Holds m st.source.minisignKey bin)
      (next : FetchEnv) (hok : next.errors = FileErrors.none) :=
    fetchFromCache_holds m hok ((fetchWithCache_minisignKey m st env).symm ▸ hholds)
  rw [and_iff_left_of_imp hnext, fetchWithCache_holds herr h]
  by_cases hverify : st.files.Verify m st.source.minisignKey
  · obtain ⟨cached, hcached⟩ := hverify
    -- the list in memory is now the one of the file
    rw [(fetchFromCache_holds m herr hcached).1]
    by_cases heq : cached = bin
    · subst heq
      exact iff_of_true (.inr hcached) fun hbad => hbad.2 ⟨cached, hcached⟩
    · exact iff_of_true (.inl heq) fun hbad => hbad.2 ⟨cached, hcached⟩
  · have hnot : ¬ st.files.Holds m st.source.minisignKey bin := fun hholds => hverify ⟨bin, hholds⟩
    rw [fetchFromCache_unverified m hverify, or_iff_left hnot, and_iff_left hverify]

theorem Sample.first_download_cached :
    Downloads minisign fresh (served 0) [1] [7, 1] ∧
      (fetchWithCache minisign fresh (served 0)).1.files.Holds minisign [7] [1] := by
  have h : Downloads minisign fresh (served 0) [1] [7, 1] := by decide
  exact ⟨h, ((download_cached_iff rfl h).mpr fun hbad => absurd hbad.1 (by decide)).1⟩

/-- The second download is the list in memory, so that the file that was overwritten since
the first one stays, and the next call cannot read it. -/
theorem Sample.corrupted_file_kept :
    History minisign fresh [⟨fresh.files, served 0⟩] corrupted ∧
      Downloads minisign corrupted (served 1) [1] [7, 1] ∧
      (fetchWithCache minisign corrupted (served 1)).1.files = ⟨some ([2], 1), some [7, 1]⟩ ∧
      (fetchFromCache minisign (fetchWithCache minisign corrupted (served 1)).1.source
        (fetchWithCache minisign corrupted (served 1)).1.files (served 2)).2.2 =
          some (.plain "Invalid signature") := by
  refine ⟨.changed corrupted.files (.call (served 0) .start), ?_, ?_, ?_⟩ <;> decide

end Fetch

end DnscryptProxy.Sources
