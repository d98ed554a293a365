import DnscryptProxy.Phases.Call
import DnscryptProxy.Plugins.Handling

/-! The limits that a query has after `PluginGetSetPayloadSize`: the size of the client's
UDP buffer and the DNSSEC OK flag. The plugin reads them from the message as the plugins
before it have left it; `client_limits_iff` says when they are the client's. -/

namespace DnscryptProxy

open Library

/-- The size and the flag in the OPT record of a message. -/
def Msg.limits (msg : Msg) : Option (Nat × Bool) :=
  msg.isEdns0.map fun rr => (rr.udpSize.toNat, rr.edns0Do)

/-- The size and the flag that a client asks for, or is taken to ask for. -/
def Msg.clientLimits (msg : Msg) : Nat × Bool := msg.limits.getD (maxDNSUDPSafePacketSize, false)

/-- What `PluginECS` writes into an OPT record of its own. -/
def subnetLimits : Nat × Bool := (maxDNSUDPPacketSize - responseOverhead, false)

/-! ## OPT records -/

theorem modifyFirst_find {p q : RR → Bool} {f : RR → RR} (hq : ∀ rr, q (f rr) = q rr) (rrs : List RR)
    {α : Type} (g : RR → α) (hg : ∀ rr, g (f rr) = g rr) :
    ((modifyFirst p f rrs).reverse.find? q).map g = (rrs.reverse.find? q).map g := by
  induction rrs with
  | nil => rfl
  | cons rr rrs ih =>
    unfold modifyFirst
    split
    · simp only [List.reverse_cons, List.find?_append, Option.map_or]
      congr 1
      by_cases h : q rr = true
      · simp [hq, h, hg]
      · simp [hq, h]
    · simp only [List.reverse_cons, List.find?_append, Option.map_or]
      rw [ih]

theorem setOptions_rrtype (rr : RR) (options : List EDNS0Option) :
    (rr.setOptions options).rrtype = rr.rrtype := by
  obtain ⟨name, cls, ttl, data⟩ := rr
  cases data <;> rfl

theorem setOptions_limits (rr : RR) (options : List EDNS0Option) :
    ((rr.setOptions options).udpSize.toNat, (rr.setOptions options).edns0Do) =
      (rr.udpSize.toNat, rr.edns0Do) := by
  unfold RR.setOptions
  split <;> rfl

theorem limits_modifyFirst (msg : Msg) (p : RR → Bool) (options : RR → List EDNS0Option) :
    Msg.limits { msg with extra := modifyFirst p (fun rr => rr.setOptions (options rr)) msg.extra } =
      msg.limits := by
  unfold Msg.limits Msg.isEdns0
  apply modifyFirst_find
  · intro rr
    rw [setOptions_rrtype]
  · intro rr
    exact setOptions_limits rr _

theorem limits_setEdns0 (msg : Msg) (udpSize : UInt16) :
    (msg.setEdns0 udpSize false).limits = some (udpSize.toNat, false) := by
  simp [Msg.limits, Msg.isEdns0, Msg.setEdns0, RR.rrtype, RR.udpSize, RR.edns0Do]

theorem limits_eq_none {msg : Msg} : msg.limits = none ↔ msg.extra.find? isOPT = none := by
  simp [Msg.limits, Msg.isEdns0, isOPT]

/-! ## The plugins before it -/

/-- The limits in the message, beside the values that a query starts with. -/
structure Sized (limits : Option (Nat × Bool)) (ctx : Ctx) : Prop where
  limits : ctx.msg.limits = limits
  maxPayloadSize : ctx.st.maxPayloadSize = maxDNSUDPPacketSize - responseOverhead
  maxUnencrypted : ctx.st.maxUnencryptedUDPSafePayloadSize = maxDNSUDPSafePacketSize

/-- What a plugin makes of the limits in the message. -/
def QueryPlugin.resize (limits : Option (Nat × Bool)) : QueryPlugin → Option (Nat × Bool)
  | .queryMeta _ => none
  | .ecs _ => some (limits.getD subnetLimits)
  | _ => limits

variable {s : Settings} {pkgs : Packages} {env : QueryEnv} {ctx ctx' : Ctx}
  {limits : Option (Nat × Bool)}

theorem Handled.sized (h : Handled ctx ctx') (hs : Sized limits ctx) : Sized limits ctx' :=
  ⟨h.msg ▸ hs.limits, h.maxPayloadSize.trans hs.maxPayloadSize,
    h.maxUnencrypted.trans hs.maxUnencrypted⟩

theorem queryMetaEval_sized (txt : List Text) (hs : Sized limits ctx) :
    Ends (queryMetaEval txt ctx) (fun r => Sized none r.1) fun _ => True :=
  ⟨rfl, hs.maxPayloadSize, hs.maxUnencrypted⟩

theorem ecsEval_sized (nets : List IPNet) (hs : Sized limits ctx) :
    Ends (ecsEval nets env ctx) (fun r => Sized (some (limits.getD subnetLimits)) r.1)
      fun _ => True := by
  have hkept : ∀ msg : Msg, msg.limits = some (limits.getD subnetLimits) →
      Sized (some (limits.getD subnetLimits)) { ctx with msg := msg } :=
    fun msg hmsg => ⟨hmsg, hs.maxPayloadSize, hs.maxUnencrypted⟩
  have hpresent : ctx.msg.extra.find? isOPT ≠ none →
      ctx.msg.limits = some (limits.getD subnetLimits) := by
    intro hfound
    have hlimits : limits ≠ none := fun hnone => hfound (limits_eq_none.mp (hs.limits.trans hnone))
    obtain ⟨l, rfl⟩ := Option.ne_none_iff_exists'.mp hlimits
    exact hs.limits
  -- the message, with an OPT record in any case
  have hmsg : (if (ctx.msg.extra.find? isOPT).isNone = true
      then ctx.msg.setEdns0 (UInt16.ofNat ctx.st.maxPayloadSize) false
      else ctx.msg).limits = some (limits.getD subnetLimits) := by
    by_cases hfound : ctx.msg.extra.find? isOPT = none
    · have hnone : limits = none := hs.limits.symm.trans (limits_eq_none.mpr hfound)
      rw [if_pos (by simp [hfound]), limits_setEdns0, hs.maxPayloadSize, hnone]
      rfl
    · rw [if_neg (by simpa using hfound)]
      exact hpresent hfound
  unfold ecsEval
  dsimp only
  split
  · next hoption =>
    have hfound : ctx.msg.extra.find? isOPT ≠ none := by
      intro hnone
      simp [hnone] at hoption
    exact hkept ctx.msg (hpresent hfound)
  · split
    · trivial
    · split
      · exact hkept _ hmsg
      · apply hkept
        rw [limits_modifyFirst]
        exact hmsg

theorem QueryPlugin.sized {plugin : QueryPlugin} (h : plugin ≠ .getSetPayloadSize)
    (hs : Sized limits ctx) :
    Ends (plugin.eval pkgs env ctx) (fun r => Sized (plugin.resize limits) r.1) fun _ => True := by
  have hother (hrewrites : ¬ plugin.Rewrites) (hresize : plugin.resize limits = limits) :
      Ends (plugin.eval pkgs env ctx) (fun r => Sized (plugin.resize limits) r.1) fun _ => True := by
    rw [hresize]
    exact (plugin.handles hrewrites).mono (fun _ _ hr => hr.sized hs) fun _ hr => hr
  cases plugin with
  | getSetPayloadSize => exact absurd rfl h
  | queryMeta txt => exact queryMetaEval_sized txt hs
  | ecs nets => exact ecsEval_sized nets hs
  | captivePortal | allowName | firefox | blockName | blockIPv6 | cloak | cache | forward
  | blockUnqualified | blockUndelegated => exact hother id rfl

theorem passes_sized {plugins : List QueryPlugin}
    (hp : ∀ plugin ∈ plugins, plugin ≠ .getSetPayloadSize)
    (h : Passes (queryStage s pkgs env) plugins ctx ctx') (hs : Sized limits ctx) :
    Sized (plugins.foldl QueryPlugin.resize limits) ctx' := by
  induction h generalizing limits with
  | nil => exact hs
  | cons head tail ih =>
    have hone := (QueryPlugin.sized (hp _ List.mem_cons_self) hs).of_ok (queryStage_next head)
    exact ih (fun plugin hmem => hp plugin (List.mem_cons_of_mem _ hmem)) hone

/-! ## The plugins in use -/

/-- The plugins before `PluginGetSetPayloadSize`. -/
def Settings.beforePayloadSize (s : Settings) : List QueryPlugin :=
  (s.captivePortalMap.map .captivePortal).toList ++
  (if s.queryMeta ≠ [] then [.queryMeta s.queryMeta] else []) ++
  (s.allowName.map .allowName).toList ++
  [.firefox] ++
  (if s.ednsClientSubnets ≠ [] then [.ecs s.ednsClientSubnets] else []) ++
  (s.blockName.map .blockName).toList ++
  (if s.pluginBlockIPv6 then [.blockIPv6] else []) ++
  (s.cloak.map .cloak).toList

/-- The plugins after it. -/
def Settings.afterPayloadSize (s : Settings) : List QueryPlugin :=
  (if s.cache then [.cache] else []) ++
  (s.forward.map .forward).toList ++
  (if s.pluginBlockUnqualified then [.blockUnqualified] else []) ++
  (if s.pluginBlockUndelegated then [.blockUndelegated] else [])

theorem queryPlugins_split (s : Settings) :
    s.queryPlugins = s.beforePayloadSize ++ .getSetPayloadSize :: s.afterPayloadSize := by
  simp [Settings.queryPlugins, Settings.beforePayloadSize, Settings.afterPayloadSize]

theorem not_mem_beforePayloadSize (s : Settings) : .getSetPayloadSize ∉ s.beforePayloadSize := by
  simp [Settings.beforePayloadSize]

theorem not_mem_afterPayloadSize (s : Settings) : .getSetPayloadSize ∉ s.afterPayloadSize := by
  simp [Settings.afterPayloadSize]

theorem eq_beforePayloadSize {pre post : List QueryPlugin}
    (h : s.queryPlugins = pre ++ .getSetPayloadSize :: post) : pre = s.beforePayloadSize := by
  rw [queryPlugins_split] at h
  exact ((List.append_cons_inj_of_notMem (not_mem_beforePayloadSize s)
    (not_mem_afterPayloadSize s)).mp h).1.symm

/-- The limits in the message that `PluginGetSetPayloadSize` gets. -/
def Settings.resize (s : Settings) (limits : Option (Nat × Bool)) : Option (Nat × Bool) :=
  let limits := if s.queryMeta ≠ [] then none else limits
  if s.ednsClientSubnets ≠ [] then some (limits.getD subnetLimits) else limits

theorem foldl_resize (s : Settings) (limits : Option (Nat × Bool)) :
    s.beforePayloadSize.foldl QueryPlugin.resize limits = s.resize limits := by
  have hquiet {α : Type} (o : Option α) (f : α → QueryPlugin) (hf : ∀ a l, (f a).resize l = l)
      (l : Option (Nat × Bool)) : (o.map f).toList.foldl QueryPlugin.resize l = l := by
    cases o with
    | none => rfl
    | some a => exact hf a l
  simp only [Settings.beforePayloadSize, List.foldl_append, hquiet _ .captivePortal fun _ _ => rfl,
    hquiet _ .allowName fun _ _ => rfl, hquiet _ .blockName fun _ _ => rfl,
    hquiet _ .cloak fun _ _ => rfl]
  unfold Settings.resize
  split <;> split <;> split <;> rfl

/-! ## The plugin itself -/

theorem getSetPayloadSizeEval_limits (hs : Sized limits ctx) :
    Ends (getSetPayloadSizeEval ctx) (fun r => (r.1.st.maxUnencryptedUDPSafePayloadSize,
      r.1.st.dnssec) = limits.getD (maxDNSUDPSafePacketSize, false)) fun _ => True := by
  obtain ⟨rfl, -, hsafe⟩ := hs
  obtain ⟨extra, original, maxPayloadSize, h⟩ := getSetPayloadSizeEval_eq ctx
  rw [h]
  unfold Msg.limits
  cases ctx.msg.isEdns0 with
  | none => simp [Ctx.ok, hsafe]
  | some rr => simp [Ctx.ok]

/-- The limits are the client's unless the query is given other ones on its way: without
metadata, unless a client subnet is added to a query without an OPT record; with metadata,
which displace the client's OPT record, unless the client's limits are those that a query
without one is given. -/
def Settings.KeepsLimits (s : Settings) (msg : Msg) : Prop :=
  if s.queryMeta = [] then s.ednsClientSubnets = [] ∨ msg.limits ≠ none
  else msg.clientLimits =
    if s.ednsClientSubnets = [] then (maxDNSUDPSafePacketSize, false) else subnetLimits

theorem resize_client_iff (s : Settings) (msg : Msg) :
    (s.resize msg.limits).getD (maxDNSUDPSafePacketSize, false) = msg.clientLimits ↔
      s.KeepsLimits msg := by
  have hne : subnetLimits ≠ (maxDNSUDPSafePacketSize, false) := by decide
  unfold Settings.resize Settings.KeepsLimits Msg.clientLimits
  by_cases hmeta : s.queryMeta = []
  · by_cases hsubnets : s.ednsClientSubnets = []
    · simp [hmeta, hsubnets]
    · cases hlimits : msg.limits with
      | none => simp [hmeta, hsubnets, hne]
      | some limits => simp [hmeta, hsubnets]
  · by_cases hsubnets : s.ednsClientSubnets = []
    · simp [hmeta, hsubnets, eq_comm]
    · simp [hmeta, hsubnets, eq_comm]

/-- When `PluginGetSetPayloadSize` has run on a query, the size of the UDP buffer and the
DNSSEC OK flag are those that the client sent exactly where the plugins before it keep
them. -/
theorem client_limits_iff {caller : ClientProto} {addr : Option ClientAddr} {proto : NetProto}
    {world : World} {msg : Msg} {qName : Text} {pre post : List QueryPlugin}
    (hplugins : s.queryPlugins = pre ++ .getSetPayloadSize :: post)
    (h : Passes (queryStage s pkgs env) (pre ++ [.getSetPayloadSize])
      (queryCtx (newPluginsState s.query caller addr proto) world msg qName) ctx) :
    (ctx.st.maxUnencryptedUDPSafePayloadSize, ctx.st.dnssec) = msg.clientLimits ↔
      s.KeepsLimits msg := by
  obtain rfl := eq_beforePayloadSize hplugins
  have hstart : Sized msg.limits
      (queryCtx (newPluginsState s.query caller addr proto) world msg qName) := ⟨rfl, rfl, rfl⟩
  obtain ⟨ctx₁, hbefore, hlast⟩ := h.split
  have hsized := passes_sized (fun plugin hmem heq => not_mem_beforePayloadSize s (heq ▸ hmem))
    hbefore hstart
  rw [foldl_resize] at hsized
  obtain ⟨⟩ | ⟨heval, ⟨⟩⟩ := hlast
  rw [(getSetPayloadSizeEval_limits hsized).of_ok (queryStage_next heval)]
  exact resize_client_iff s msg

/-! ## The additional section -/

/-- The OPT records of a message, in their order. -/
def Msg.optRecords (msg : Msg) : List RR := msg.extra.filter isOPT

theorem isEdns0_eq (msg : Msg) : msg.isEdns0 = msg.optRecords.getLast? := by
  rw [Msg.optRecords, ← List.head?_reverse, ← List.filter_reverse, List.head?_filter]
  rfl

theorem firstOptions_eq (msg : Msg) :
    firstOptions msg.extra = (msg.optRecords.find? fun rr => rr.options ≠ []).map RR.options := by
  simp [firstOptions, Msg.optRecords, List.find?_filter]

theorem modifyFirst_append {p : RR → Bool} {f : RR → RR} {rrs : List RR} {rr : RR}
    (hrrs : ∀ other ∈ rrs, ¬ p other) (hrr : p rr) :
    modifyFirst p f (rrs ++ [rr]) = rrs ++ [f rr] := by
  induction rrs with
  | nil => simp [modifyFirst, hrr]
  | cons other rrs ih =>
    rw [List.cons_append, modifyFirst, if_neg (hrrs other List.mem_cons_self),
      ih fun rr hmem => hrrs rr (List.mem_cons_of_mem other hmem)]
    rfl

/-- A message with an OPT record of the proxy in place of its own. -/
def Msg.withOPT (msg : Msg) (udpSize : UInt16) (edns0Do : Bool) (options : List EDNS0Option) :
    Msg :=
  { msg with extra := (msg.extra.filter fun rr => !isOPT rr) ++
      [⟨['.'], udpSize, if edns0Do then 0x8000 else 0, .opt options⟩] }

theorem modifyFirst_withOPT (msg : Msg) (udpSize : UInt16) (edns0Do : Bool)
    (options : List EDNS0Option) :
    { msg with extra := modifyFirst isOPT (RR.setOptions · options)
                          (msg.withOPT udpSize edns0Do []).extra } =
      msg.withOPT udpSize edns0Do options := by
  have hothers : ∀ rr ∈ msg.extra.filter fun rr => !isOPT rr, ¬ isOPT rr := by
    intro rr hmem
    simpa using (List.mem_filter.mp hmem).2
  simp only [Msg.withOPT]
  rw [modifyFirst_append hothers rfl]
  rfl

theorem getSetPayloadSizeEval_msg (h : 512 < ctx.st.maxPayloadSize) :
    ∃ ctx', getSetPayloadSizeEval ctx = Ctx.ok ctx' ∧
      ctx'.st.maxPayloadSize ≤ maxDNSUDPPacketSize - responseOverhead ∧
      ctx'.msg = ctx.msg.withOPT (UInt16.ofNat ctx'.st.maxPayloadSize)
        (ctx.msg.isEdns0.any RR.edns0Do) ((firstOptions ctx.msg.extra).getD []) := by
  have hlarge (original : Nat) : 512 < min (maxDNSUDPPacketSize - responseOverhead)
      (max original ctx.st.maxPayloadSize) :=
    lt_min (by decide) (lt_max_of_lt_right h)
  unfold getSetPayloadSizeEval
  cases ctx.msg.isEdns0 with
  | none =>
    rw [if_pos (hlarge _)]
    refine ⟨_, rfl, min_le_left _ _, ?_⟩
    cases firstOptions ctx.msg.extra with
    | none => rfl
    | some options => exact modifyFirst_withOPT ctx.msg _ _ options
  | some rr =>
    rw [if_pos (hlarge _)]
    refine ⟨_, rfl, min_le_left _ _, ?_⟩
    cases firstOptions ctx.msg.extra with
    | none => rfl
    | some options => exact modifyFirst_withOPT ctx.msg _ _ options

/-- What a message is like after `PluginGetSetPayloadSize`: the other records stay as they
are, in front of one OPT record that announces the size, with the flag of the last OPT record
there was and the options of the first one that had any. -/
structure PayloadSizeSet (ctx ctx' : Ctx) (opt : RR) : Prop where
  msg : ctx'.msg = { ctx.msg with extra := (ctx.msg.extra.filter fun rr => !isOPT rr) ++ [opt] }
  isOPT : isOPT opt
  udpSize : opt.udpSize.toNat = ctx'.st.maxPayloadSize
  bound : ctx'.st.maxPayloadSize ≤ maxDNSUDPPacketSize - responseOverhead
  edns0Do : opt.edns0Do = ctx.msg.optRecords.getLast?.any RR.edns0Do
  options : opt.options =
    ((ctx.msg.optRecords.find? fun rr => rr.options ≠ []).map RR.options).getD []

/-- The plugin leaves any message with one OPT record, after any other plugins. -/
theorem payload_size_set {caller : ClientProto} {addr : Option ClientAddr} {proto : NetProto}
    {world : World} {msg : Msg} {qName : Text} {plugins : List QueryPlugin}
    (hplugins : .getSetPayloadSize ∉ plugins)
    (h : Passes (queryStage s pkgs env) plugins
      (queryCtx (newPluginsState s.query caller addr proto) world msg qName) ctx) :
    ∃ ctx' opt, getSetPayloadSizeEval ctx = Ctx.ok ctx' ∧ PayloadSizeSet ctx ctx' opt := by
  have hstart : Sized msg.limits
      (queryCtx (newPluginsState s.query caller addr proto) world msg qName) := ⟨rfl, rfl, rfl⟩
  have hsized := passes_sized (fun plugin hmem heq => hplugins (heq ▸ hmem)) h hstart
  have hlarge : 512 < ctx.st.maxPayloadSize := by
    rw [hsized.maxPayloadSize]
    decide
  obtain ⟨ctx', heval, hbound, hmsg⟩ := getSetPayloadSizeEval_msg hlarge
  refine ⟨ctx', _, heval, hmsg, rfl, ?_, hbound, ?_, ?_⟩
  · have hfits : ctx'.st.maxPayloadSize < 2 ^ 16 := hbound.trans_lt (by decide)
    exact UInt16.toNat_ofNat_of_lt' hfits
  · rw [← isEdns0_eq]
    cases ctx.msg.isEdns0.any RR.edns0Do <;> simp [RR.edns0Do]
  · rw [← firstOptions_eq]
    rfl

namespace Sample

def limitsCtx (s : Settings) (msg : Msg) : Ctx :=
  queryCtx (newPluginsState s.query .udp (some (.udp [192, 0, 2, 100] 5353)) .udp) world msg
    "example.com".toList

/-- A client that announces a buffer of 1400 bytes and wants DNSSEC. -/
def dnssecQuery : Msg := { query with extra := [⟨['.'], 1400, 0x8000, .opt []⟩] }

theorem bare_keeps_limits :
    ∃ ctx, Passes (queryStage .bare (proxy .bare dns).pkgs (answering 0).query)
        ([.firefox] ++ [.getSetPayloadSize]) (limitsCtx .bare dnssecQuery) ctx ∧
      (ctx.st.maxUnencryptedUDPSafePayloadSize, ctx.st.dnssec) = (1400, true) := by
  have hplugins : Settings.bare.queryPlugins = [.firefox] ++ .getSetPayloadSize :: [] := rfl
  obtain ⟨ctx, h⟩ : ∃ ctx, Passes (queryStage .bare (proxy .bare dns).pkgs (answering 0).query)
      ([.firefox] ++ [.getSetPayloadSize]) (limitsCtx .bare dnssecQuery) ctx :=
    ⟨_, passes_of_chain rfl⟩
  exact ⟨ctx, h, (client_limits_iff hplugins h).mpr (.inl rfl)⟩

/-- Two OPT records around another one; the options are in the first, the flag in the last. -/
def optsQuery : Msg :=
  { query with extra := [⟨['.'], 1400, 0, .opt [⟨3, [1]⟩]⟩, ⟨"a.".toList, 1, 60, .a [192, 0, 2, 1]⟩,
      ⟨['.'], 512, 0x8000, .opt [⟨10, [2]⟩]⟩] }

theorem opts_replaced :
    ∃ ctx' opt, getSetPayloadSizeEval (limitsCtx .bare optsQuery) = Ctx.ok ctx' ∧
      PayloadSizeSet (limitsCtx .bare optsQuery) ctx' opt := by
  have hnone : Passes (queryStage .bare (proxy .bare dns).pkgs (answering 0).query) []
      (limitsCtx .bare optsQuery) (limitsCtx .bare optsQuery) := .nil _
  exact payload_size_set List.not_mem_nil hnone

/-- A client subnet is added to every query. -/
def withSubnet : Settings := { Settings.bare with ednsClientSubnets := [⟨[198, 51, 100, 0], 24, 32⟩] }

/-- A client without EDNS0 is taken to have a buffer of 4048 bytes. -/
theorem subnet_enlarges_buffer :
    ∃ ctx, Passes (queryStage withSubnet (proxy withSubnet dns).pkgs (answering 0).query)
        ([.firefox, .ecs withSubnet.ednsClientSubnets] ++ [.getSetPayloadSize])
        (limitsCtx withSubnet query) ctx ∧
      ctx.st.maxUnencryptedUDPSafePayloadSize = 4048 ∧
      query.clientLimits = (maxDNSUDPSafePacketSize, false) ∧ maxDNSUDPSafePacketSize = 1252 :=
  ⟨_, passes_of_chain rfl, rfl, rfl, rfl⟩

end Sample

end DnscryptProxy
