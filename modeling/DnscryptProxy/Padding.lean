import DnscryptProxy.PayloadSize

/-! The padding of a query for a DoH server. `ApplyQueryPlugins` computes the length of the padding
from the length of the query without it, and `addEDNS0PaddingIfNoneFound` puts it into an option
with a header of four bytes. `query_length_iff` says when the query is a multiple of 64 bytes long. -/

namespace DnscryptProxy

open Library

/-! ## Padding -/

/-- The message has a padding option in its last OPT record. -/
def Msg.hasPadding (msg : Msg) : Bool :=
  msg.isEdns0.any fun rr => rr.options.any fun option => option.code = edns0Padding

/-- The message, with an OPT record in any case. -/
def Msg.withEdns0 (msg : Msg) : Msg :=
  if msg.isEdns0.isNone then msg.setEdns0 (UInt16.ofNat maxDNSPacketSize) false else msg

/-- An option is added to the last OPT record. -/
def Msg.withOption (msg : Msg) (option : EDNS0Option) : Msg :=
  msg.modifyEdns0 fun rr => rr.setOptions (rr.options ++ [option])

def paddingOption (paddingLen : Nat) : EDNS0Option := ⟨edns0Padding, List.replicate paddingLen 0x58⟩

theorem withEdns0_isEdns0 (msg : Msg) : ∃ rr, msg.withEdns0.isEdns0 = some rr := by
  unfold Msg.withEdns0
  cases h : msg.isEdns0 with
  | none => simp [Msg.setEdns0, Msg.isEdns0, RR.rrtype]
  | some rr => exact ⟨rr, by simpa using h⟩

theorem withEdns0_hasPadding (msg : Msg) : msg.withEdns0.hasPadding = msg.hasPadding := by
  unfold Msg.withEdns0 Msg.hasPadding
  cases h : msg.isEdns0 with
  | none => simp [Msg.setEdns0, Msg.isEdns0, RR.rrtype, RR.options]
  | some rr => simp [h]

theorem addEDNS0PaddingIfNoneFound_eq (lib : DNSLibrary) (msg : Msg) (packet : Bytes)
    (paddingLen : Nat) : addEDNS0PaddingIfNoneFound lib msg packet paddingLen =
      if msg.hasPadding then (.ok packet, msg.withEdns0)
      else (lib.pack (msg.withEdns0.withOption (paddingOption paddingLen)),
        msg.withEdns0.withOption (paddingOption paddingLen)) := by
  obtain ⟨rr, hrr⟩ := withEdns0_isEdns0 msg
  have hpadding : msg.hasPadding = rr.options.any fun option => option.code = edns0Padding := by
    rw [← withEdns0_hasPadding, Msg.hasPadding, hrr]
    rfl
  unfold addEDNS0PaddingIfNoneFound
  rw [← Msg.withEdns0]
  dsimp only
  rw [hrr, hpadding]
  rfl

/-- How long messages are when they are packed. An option adds its data and four bytes. -/
structure DNSLibrary.Measured (lib : DNSLibrary) (size : Msg → Nat) : Prop where
  pack : ∀ msg packet, lib.pack msg = .ok packet → packet.length = size msg
  option : ∀ msg rr option, msg.isEdns0 = some rr →
    size (msg.withOption option) = size msg + option.data.length + 4

variable {msg : Msg} {rr : RR} {option : EDNS0Option}

theorem DNSLibrary.Measured.padded_length {lib : DNSLibrary} {size : Msg → Nat}
    (hlib : lib.Measured size) (hrr : msg.isEdns0 = some rr) {padLen : Nat} {packet : Bytes}
    (h : lib.pack (msg.withOption (paddingOption padLen)) = .ok packet) :
    packet.length = size msg + padLen + 4 := by
  rw [hlib.pack _ _ h, hlib.option _ rr _ hrr]
  simp [paddingOption]

/-! ## Queries without a padding option -/

/-- No record has a padding option. -/
def Msg.Unpadded (msg : Msg) : Prop :=
  ∀ rr ∈ msg.extra, ∀ option ∈ rr.options, option.code ≠ edns0Padding

theorem Msg.Unpadded.hasPadding (h : msg.Unpadded) : msg.hasPadding = false := by
  unfold Msg.hasPadding
  cases hrr : msg.isEdns0 with
  | none => rfl
  | some rr =>
    have hmem : rr ∈ msg.extra := List.mem_reverse.mp (List.mem_of_find?_eq_some hrr)
    simpa using h rr hmem

theorem mem_modifyFirst {p : RR → Bool} {f : RR → RR} {rrs : List RR} (h : rr ∈ modifyFirst p f rrs)
    : rr ∈ rrs ∨ ∃ other ∈ rrs, rr = f other := by
  induction rrs with
  | nil => cases h
  | cons other rrs ih =>
    unfold modifyFirst at h
    split at h
    · rcases List.mem_cons.mp h with rfl | hmem
      · exact .inr ⟨other, List.mem_cons_self, rfl⟩
      · exact .inl (List.mem_cons_of_mem _ hmem)
    · rcases List.mem_cons.mp h with rfl | hmem
      · exact .inl List.mem_cons_self
      · rcases ih hmem with hmem | ⟨other, hmem, heq⟩
        · exact .inl (List.mem_cons_of_mem _ hmem)
        · exact .inr ⟨other, List.mem_cons_of_mem _ hmem, heq⟩

theorem mem_setOptions {options : List EDNS0Option} (h : option ∈ (rr.setOptions options).options) :
    option ∈ options := by
  obtain ⟨name, cls, ttl, data⟩ := rr
  cases data with
  | opt old => exact h
  | _ => cases h

theorem setOptions_options (h : rr.rrtype = typeOPT) (options : List EDNS0Option) :
    (rr.setOptions options).options = options := by
  obtain ⟨name, cls, ttl, data⟩ := rr
  cases data with
  | opt old => rfl
  | other rrtype unnamed rdata =>
    obtain rfl : rrtype = typeOPT := h
    exact absurd (by decide) unnamed
  | _ =>
    dsimp only [RR.rrtype] at h
    exact absurd h (by decide)

theorem subnetOption_code {net : IPNet} (h : subnetOption net = some option) :
    option.code = edns0Subnet := by
  unfold subnetOption at h
  split_ifs at h <;> cases h <;> rfl

theorem firstOptions_mem {extra : List RR} {options : List EDNS0Option}
    (h : firstOptions extra = some options) : ∃ rr ∈ extra, rr.options = options := by
  obtain ⟨rr, hfind, rfl⟩ := Option.map_eq_some_iff.mp h
  exact ⟨rr, List.mem_of_find?_eq_some hfind, rfl⟩

theorem unpadded_setEdns0 (h : msg.Unpadded) (udpSize : UInt16) :
    (msg.setEdns0 udpSize false).Unpadded := by
  intro rr hmem option hoption
  rcases List.mem_append.mp hmem with hmem | hmem
  · exact h rr hmem option hoption
  · obtain rfl := List.mem_singleton.mp hmem
    cases hoption

theorem unpadded_addOption (h : msg.Unpadded) (hoption : option.code ≠ edns0Padding) :
    Msg.Unpadded { msg with
      extra := modifyFirst isOPT (fun rr => rr.setOptions (rr.options ++ [option])) msg.extra } := by
  intro rr hmem other hother
  rcases mem_modifyFirst hmem with hmem | ⟨old, hold, rfl⟩
  · exact h rr hmem other hother
  · rcases List.mem_append.mp (mem_setOptions hother) with hother | hnew
    · exact h old hold other hother
    · obtain rfl := List.mem_singleton.mp hnew
      exact hoption

theorem unpadded_withOPT (h : msg.Unpadded) (udpSize : UInt16) (edns0Do : Bool) :
    (msg.withOPT udpSize edns0Do ((firstOptions msg.extra).getD [])).Unpadded := by
  intro rr hmem option hoption
  rcases List.mem_append.mp hmem with hmem | hmem
  · exact h rr (List.mem_filter.mp hmem).1 option hoption
  · obtain rfl := List.mem_singleton.mp hmem
    cases hfirst : firstOptions msg.extra with
    | none =>
      rw [hfirst] at hoption
      cases hoption
    | some options =>
      rw [hfirst] at hoption
      obtain ⟨rr, hrr, rfl⟩ := firstOptions_mem hfirst
      exact h rr hrr option hoption

section Plugins

variable {s : Settings} {pkgs : Packages} {env : QueryEnv} {ctx ctx' : Ctx}

theorem ecsEval_unpadded (nets : List IPNet) (h : ctx.msg.Unpadded) :
    Ends (ecsEval nets env ctx) (fun r => r.1.msg.Unpadded) fun _ => True := by
  have hmsg : (if (ctx.msg.extra.find? isOPT).isNone = true
      then ctx.msg.setEdns0 (UInt16.ofNat ctx.st.maxPayloadSize) false else ctx.msg).Unpadded := by
    split
    · exact unpadded_setEdns0 h _
    · exact h
  unfold ecsEval
  dsimp only
  split
  · exact h
  · split
    · trivial
    · split
      · exact hmsg
      · next option hoption =>
        refine unpadded_addOption hmsg ?_
        rw [subnetOption_code hoption]
        decide

theorem QueryPlugin.unpadded {plugin : QueryPlugin} (hp : plugin ≠ .getSetPayloadSize)
    (h : ctx.msg.Unpadded) :
    Ends (plugin.eval pkgs env ctx) (fun r => r.1.msg.Unpadded) fun _ => True := by
  have hother (hrewrites : ¬ plugin.Rewrites) :
      Ends (plugin.eval pkgs env ctx) (fun r => r.1.msg.Unpadded) fun _ => True :=
    (plugin.handles hrewrites).mono (fun _ _ hr => hr.msg ▸ h) fun _ hr => hr
  cases plugin with
  | getSetPayloadSize => exact absurd rfl hp
  | queryMeta txt =>
    intro rr hmem option hoption
    obtain rfl := List.mem_singleton.mp hmem
    cases hoption
  | ecs nets => exact ecsEval_unpadded nets h
  | captivePortal | allowName | firefox | blockName | blockIPv6 | cloak | cache | forward
  | blockUnqualified | blockUndelegated => exact hother id

theorem not_rewrites_afterPayloadSize {plugin : QueryPlugin} (h : plugin ∈ s.afterPayloadSize) :
    ¬ plugin.Rewrites := by
  simp only [Settings.afterPayloadSize, List.mem_append, List.mem_ite_nil_right, List.mem_singleton,
    Option.mem_toList, Option.map_eq_some_iff] at h
  rcases h with ((⟨-, rfl⟩ | ⟨forwardMap, -, rfl⟩) | ⟨-, rfl⟩) | ⟨-, rfl⟩ <;> exact id

theorem passed_unpadded {caller : ClientProto} {addr : Option ClientAddr} {proto : NetProto}
    {world : World} {msg : Msg} {qName : Text} (hmsg : msg.Unpadded)
    (h : Passes (queryStage s pkgs env) s.queryPlugins
      (queryCtx (newPluginsState s.query caller addr proto) world msg qName) ctx) :
    ctx.msg.Unpadded ∧ ∃ rr, ctx.msg.isEdns0 = some rr := by
  have hstart : Sized msg.limits
      (queryCtx (newPluginsState s.query caller addr proto) world msg qName) := ⟨rfl, rfl, rfl⟩
  rw [queryPlugins_split] at h
  obtain ⟨ctx₁, hbefore, hrest⟩ := h.split
  obtain ⟨⟩ | ⟨head, hafter⟩ := hrest
  have hne : ∀ plugin ∈ s.beforePayloadSize, plugin ≠ .getSetPayloadSize :=
    fun plugin hmem heq => not_mem_beforePayloadSize s (heq ▸ hmem)
  have hsized := passes_sized hne hbefore hstart
  have hbefore : ctx₁.msg.Unpadded :=
    hbefore.invariant (I := fun ctx' => ctx'.msg.Unpadded) (fun plugin hmem _ _ hs heval =>
      (QueryPlugin.unpadded (hne plugin hmem) hs).of_ok (queryStage_next heval)) hmsg
  -- the OPT record is the one of `PluginGetSetPayloadSize`
  have hlarge : 512 < ctx₁.st.maxPayloadSize := by
    rw [hsized.maxPayloadSize]
    decide
  obtain ⟨ctx₂, heval, -, hset⟩ := getSetPayloadSizeEval_msg hlarge
  obtain rfl := congrArg Prod.fst (Except.ok.inj (heval.symm.trans (queryStage_next head)))
  have hkept := hafter.invariant (I := fun ctx' => ctx'.msg = ctx₂.msg)
    (fun plugin hmem _ _ hs heval => ((plugin.handles (not_rewrites_afterPayloadSize hmem)).of_ok
      (queryStage_next heval)).msg.trans hs) rfl
  rw [hkept, hset]
  refine ⟨unpadded_withOPT hbefore _ _, ?_⟩
  simp [Msg.withOPT, Msg.isEdns0, RR.rrtype]

theorem passed_action {plugins : List QueryPlugin} (h : Passes (queryStage s pkgs env) plugins ctx ctx')
    (hs : ctx.st.action = .cont) : ctx'.st.action = .cont :=
  h.invariant (I := fun ctx => ctx.st.action = .cont)
    (fun _ _ _ _ _ hstage => queryStage_next_action hstage) hs

/-! ## The length of the query -/

/-- How the length can be a multiple of 64: the query is that long without any padding, and one
with an empty padding option cannot be packed; or the query itself cannot be packed, and the buffer
that comes with the error is that long. -/
def DNSLibrary.LeftInBlocks (lib : DNSLibrary) (packet : Bytes) (msg : Msg) : Prop :=
  (∃ packet2 e, lib.pack msg = .ok packet2 ∧ 64 ∣ packet2.length ∧
    lib.pack (msg.withOption (paddingOption 0)) = .error e) ∨
  ∃ e, lib.pack msg = .error e ∧ 64 ∣ (lib.packFailure msg packet).length

theorem padLen_fills (length : Nat) : 64 ∣ length + (63 - (length + 63) % 64) := by
  omega

theorem repackQuery_length_iff {lib : DNSLibrary} {size : Msg → Nat} (hlib : lib.Measured size)
    (packet : Bytes) {rr : RR} (hrr : ctx.msg.isEdns0 = some rr) (hmsg : ctx.msg.hasPadding = false)
    (haction : ctx.st.action = .cont) :
    64 ∣ (repackQuery lib packet true ctx).packet.length ↔ lib.LeftInBlocks packet ctx.msg := by
  have hedns0 : ctx.msg.withEdns0 = ctx.msg := by
    rw [Msg.withEdns0, hrr]
    rfl
  unfold repackQuery DNSLibrary.LeftInBlocks
  cases hpack : lib.pack ctx.msg with
  | error e => simp
  | ok packet2 =>
    have hfills := padLen_fills packet2.length
    dsimp only
    rw [if_pos ⟨rfl, haction⟩, addEDNS0PaddingIfNoneFound_eq, hmsg, hedns0]
    generalize hpad : 63 - (packet2.length + 63) % 64 = padLen at hfills
    -- no padding is needed only where the length is a multiple of 64 already
    have hzero : 64 ∣ packet2.length → padLen = 0 := by omega
    cases hpadded : lib.pack (ctx.msg.withOption (paddingOption padLen)) with
    | error e =>
      constructor
      · intro hdvd
        exact .inl ⟨packet2, e, rfl, hdvd, hzero hdvd ▸ hpadded⟩
      · rintro (⟨_, _, ⟨⟩, hdvd, -⟩ | ⟨_, ⟨⟩, -⟩)
        exact hdvd
    | ok padded =>
      have hlength : padded.length = packet2.length + padLen + 4 := by
        rw [hlib.padded_length hrr hpadded, ← hlib.pack _ _ hpack]
      constructor
      · intro hdvd
        have hdvd : 64 ∣ packet2.length + padLen + 4 := hlength ▸ hdvd
        omega
      · rintro (⟨_, e, ⟨⟩, hdvd, herr⟩ | ⟨_, ⟨⟩, -⟩)
        rw [hzero hdvd, herr] at hpadded
        cases hpadded

/-- A query without a padding option for which all plugins continue: its length is not a multiple
of 64 once it is padded. -/
theorem query_length_iff {size : Msg → Nat} (hlib : pkgs.dns.Measured size) {caller : ClientProto}
    {addr : Option ClientAddr} {proto : NetProto} {world : World} {packet : Bytes} {msg : Msg}
    {qName : Text} (hparse : parseQuery pkgs.dns packet = .ok (msg, qName)) (hmsg : msg.Unpadded)
    (h : Passes (queryStage s pkgs env) s.queryPlugins
      (queryCtx (newPluginsState s.query caller addr proto) world msg qName) ctx) :
    ∃ applied, applyQueryPlugins s pkgs env (newPluginsState s.query caller addr proto) world packet
        true = .ok applied ∧
      (64 ∣ applied.packet.length ↔ pkgs.dns.LeftInBlocks packet ctx.msg) := by
  obtain ⟨hunpadded, rr, hrr⟩ := passed_unpadded hmsg h
  have happlied : applyQueryPlugins s pkgs env (newPluginsState s.query caller addr proto) world
      packet true = .ok (repackQuery pkgs.dns packet true ctx) := by
    unfold applyQueryPlugins
    rw [hparse]
    dsimp only
    have hchain := h.chain_eq
    unfold queryCtx at hchain
    rw [hchain]
    rfl
  exact ⟨_, happlied,
    repackQuery_length_iff hlib packet hrr hunpadded.hasPadding (passed_action h rfl)⟩

end Plugins

namespace Sample

def total {α : Type} (size : α → Nat) : List α → Nat
  | [] => 0
  | a :: l => size a + total size l

theorem total_append {α : Type} (size : α → Nat) (l l' : List α) :
    total size (l ++ l') = total size l + total size l' := by
  induction l with
  | nil => simp [total]
  | cons a l ih =>
    rw [List.cons_append, total, total, ih]
    omega

theorem total_reverse {α : Type} (size : α → Nat) (l : List α) :
    total size l.reverse = total size l := by
  induction l with
  | nil => rfl
  | cons a l ih =>
    rw [List.reverse_cons, total_append, ih, total, total, total]
    omega

def recordSize (rr : RR) : Nat := 11 + total (fun option => option.data.length + 4) rr.options

/-- The length of a message about the sample question, with addresses as answers. -/
def wireSize (msg : Msg) : Nat := 29 + 16 * msg.answer.length + total recordSize msg.extra

theorem total_modifyFirst (p : RR → Bool) (f : RR → RR) (size : RR → Nat) {rrs : List RR} {rr : RR}
    (h : rrs.find? p = some rr) :
    total size (modifyFirst p f rrs) + size rr = total size rrs + size (f rr) := by
  induction rrs with
  | nil => cases h
  | cons other rrs ih =>
    unfold modifyFirst
    by_cases hp : p other = true
    · rw [List.find?_cons_of_pos hp] at h
      cases h
      rw [if_pos hp, total, total]
      omega
    · rw [List.find?_cons_of_neg hp] at h
      have hrest := ih h
      rw [if_neg hp, total, total]
      omega

theorem measured_ofTable {table : List (Bytes × Msg)} (hlen : ∀ e ∈ table, 12 ≤ e.1.length)
    (htable : ∀ e ∈ table, e.1.length = wireSize e.2) :
    (DNSLibrary.ofTable table hlen).Measured wireSize where
  pack msg packet h := by
    unfold DNSLibrary.ofTable at h
    dsimp only at h
    split at h
    · next e hfind =>
      cases h
      have hmsg : e.2 = msg := by simpa using List.find?_some hfind
      rw [htable e (List.mem_of_find?_eq_some hfind), hmsg]
    · cases h
  option msg rr option h := by
    have htype : rr.rrtype = typeOPT := by simpa using List.find?_some h
    have htotal := total_modifyFirst _ (fun rr => rr.setOptions (rr.options ++ [option])) recordSize h
    have hrecord : recordSize (rr.setOptions (rr.options ++ [option])) =
        recordSize rr + option.data.length + 4 := by
      simp only [recordSize, setOptions_options htype, total_append, total]
      omega
    rw [total_reverse, hrecord] at htotal
    simp only [wireSize, Msg.withOption, Msg.modifyEdns0, total_reverse]
    omega

theorem dns_measured : dns.Measured wireSize := measured_ofTable (by decide) (by decide)

/-- The query of 40 bytes is padded to 68. -/
theorem padded_to_68_bytes :
    ∃ applied, applyQueryPlugins .bare (proxy .bare dns).pkgs (answering 0).query
        (newPluginsState Settings.bare.query .udp (some (.udp [192, 0, 2, 100] 5353)) .udp) world
        queryPacket true = .ok applied ∧ applied.packet.length = 68 ∧ ¬ 64 ∣ applied.packet.length :=
  ⟨_, rfl, rfl, by decide⟩

theorem query_length_of_sample :
    ∃ applied, applyQueryPlugins .bare (proxy .bare dns).pkgs (answering 0).query
        (newPluginsState Settings.bare.query .udp (some (.udp [192, 0, 2, 100] 5353)) .udp) world
        queryPacket true = .ok applied ∧
      ¬ dns.LeftInBlocks queryPacket { query with extra := [opt []] } ∧
      ¬ 64 ∣ applied.packet.length := by
  have hmsg : query.Unpadded := nofun
  have hpadded : ¬ dns.LeftInBlocks queryPacket { query with extra := [opt []] } := by
    rintro (⟨packet2, e, hpack, hblocks, -⟩ | ⟨e, hpack, -⟩)
    · cases hpack
      exact absurd hblocks (by decide)
    · cases hpack
  have h : ∃ ctx, Passes (queryStage .bare (proxy .bare dns).pkgs (answering 0).query)
      Settings.bare.queryPlugins (limitsCtx .bare query) ctx ∧ ctx.msg = { query with extra := [opt []] } :=
    ⟨_, passes_of_chain rfl, rfl⟩
  obtain ⟨ctx, h, hctx⟩ := h
  have hparse : parseQuery (proxy .bare dns).pkgs.dns queryPacket =
      .ok (query, "example.com".toList) := rfl
  obtain ⟨applied, happlied, hlength⟩ := query_length_iff dns_measured hparse hmsg h
  exact ⟨applied, happlied, hpadded, hlength.not.mpr (hctx ▸ hpadded)⟩

end Sample

end DnscryptProxy
