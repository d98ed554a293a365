import DnscryptProxy.Phases.Exchange

/-! The response plugins of a call and the delivery to its client. -/

namespace DnscryptProxy

open Library Relation

section Phases

variable {p : Proxy} {caller : Caller} {env : CallEnv} {world : World} {U : Prop}

/-! ## The response -/

/-- What goes on to the client of a packet that was given to the response plugins. -/
inductive Filtered (s : Settings) (pkgs : Packages) (env : ResponseEnv) (st : PluginsState)
    (world : World) (packet : Bytes) : Bytes → Prop where
  | unparsed {e : GoError} (unparsed : pkgs.dns.unpack packet = .error e)
      (truncated : hasTCFlag packet = true) : Filtered s pkgs env st world packet packet
  | replaced {st' : PluginsState} {synth : Msg} {body : Bytes}
      (replaced : Replaced s pkgs env st world packet st')
      (synthesized : st'.synthResponse = some synth) (packed : pkgs.dns.pack synth = .ok body) :
      Filtered s pkgs env st world packet body
  | passed {msg : Msg} {body : Bytes} (passed : PassedResponse s pkgs env st world packet msg)
      (packed : pkgs.dns.pack msg = .ok body) : Filtered s pkgs env st world packet body

variable {flow : Flow}

theorem Sound.hand (h : Sound p caller env world U flow) (time : Time) :
    Sound p caller env world U (flow.hand time) :=
  h.update (.refl _) (.single (.received ..)) h.traced

theorem Sound.charge (h : Sound p caller env world U flow) :
    Sound p caller env world U flow.charge := by
  unfold Flow.charge
  split
  · split
    · exact h
    · exact h.noticed _
  · exact h.noticed _

theorem charge_response (flow : Flow) :
    flow.charge.response = flow.response ∧ flow.charge.handed = flow.handed := by
  unfold Flow.charge
  split
  · split <;> exact ⟨rfl, rfl⟩
  · exact ⟨rfl, rfl⟩

/-- The environment of the response plugins of a call. -/
def responseEnv (env : CallEnv) (subquery : Subquery) : ResponseEnv :=
  ⟨env.responseTime, env.freshID, subquery⟩

theorem Responded.filtered {renv : ResponseEnv} {flow' : Flow} {applied : Applied}
    {st : PluginsState} {w : World} {packet : Bytes} (hi : Idle st)
    (h : Responded p.settings p.pkgs renv st w packet applied)
    (hp : Packed p (flow.applied applied) flow') :
    Filtered p.settings p.pkgs renv st w packet flow'.response := by
  cases h with
  | unparsed e hu htc returned =>
    subst returned
    rcases hp with ⟨_, rfl⟩ | ⟨synth, _, hs, _, _⟩
    · exact .unparsed hu htc
    · exact absurd (hs.symm.trans hi.2) nofun
  | replaced hr _ hsynth =>
    rcases hp with ⟨hs, _⟩ | ⟨synth, response, hs, hpack, rfl⟩
    · exact absurd hs hsynth
    · exact .replaced hr hs hpack
  | passed msg hpassed hpack hidle =>
    rcases hp with ⟨_, rfl⟩ | ⟨synth, _, hs, _, _⟩
    · exact .passed hpassed hpack
    · exact absurd (hs.symm.trans hidle.2) nofun

theorem filter_ends (h : Sound p caller env world U flow) (hi : Idle flow.st) {subquery : Subquery}
    (hsub : SubqueryEffect p.pkgs p.settings.query subquery) :
    Ends (filter p env subquery flow)
      (fun flow' => Sound p caller env world U flow' ∧ flow'.handed = some flow.response ∧
        Filtered p.settings p.pkgs (responseEnv env subquery) flow.st
          (flow.hand env.responseTime).world flow.response flow'.response)
      (SoundStop p caller env world U) := by
  unfold filter
  split
  · exact h.leaveFailing _
  next hfits =>
  have hne : flow.response ≠ [] := by
    intro hnil
    rw [hnil] at hfits
    exact hfits rfl
  have hhand := h.hand env.responseTime
  have hreceived : .received flow.origin.source flow.st.questionMsg flow.response env.responseTime ∈
      (flow.hand env.responseTime).world.history := List.mem_cons_self
  have hends : Ends (applyResponsePlugins p.settings p.pkgs (responseEnv env subquery) flow.st
      (flow.hand env.responseTime).world flow.response none) _ _ :=
    applyResponsePlugins_ends hsub hreceived h.settings hi
  dsimp only
  split
  · next halted hh => exact hhand.steps.trans (hends.of_error hh)
  · next applied ha =>
    obtain ⟨hresponded, hsame, hstale, hw⟩ := hends.of_ok ha
    -- nothing was synthesized yet, and the plugins leave the stale answer alone
    have hholds (msg : Msg) (hmsg : flow.st.Holds msg) : applied.st.Holds msg := by
      rcases hmsg with hsynth | hmsg
      · cases hi.2.symm.trans hsynth
      · exact .inr (hstale.trans hmsg)
    have happlied : Sound p caller env world U ((flow.hand env.responseTime).applied applied) :=
      hhand.update hsame hw
        ((h.traced.of_holds hholds).onward (fun _ hc => hc.filtered ha) fun hnil => absurd hnil hne)
    split
    · exact happlied.leaveFailing _
    · next herr =>
      unfold afterResponsePlugins
      split
      · exact happlied.leaveWith _
      · refine happlied.packSynth.bind fun flow' _ hflow => ?_
        obtain ⟨hsound, hpacked⟩ := hflow
        have hhanded : flow'.handed = some flow.response := by
          rcases hpacked with ⟨_, rfl⟩ | ⟨_, _, _, _, rfl⟩ <;> rfl
        obtain ⟨hr, hc⟩ := charge_response flow'
        refine ⟨hsound.charge, hc.trans hhanded, ?_⟩
        rw [hr]
        exact (hresponded herr).filtered hi hpacked

/-! ## The client -/

/-- What the client gets of a response. -/
inductive Delivered (p : Proxy) (caller : Caller) (response : Bytes) (exit : Exit) : Prop where
  | udp (proto : caller.clientProto = .udp) (writes : exit.writes = [exit.response])
      (whole : exit.response = response ∨
        truncatedResponse p.pkgs.dns response = .ok exit.response)
  | tcp (proto : caller.clientProto = .tcp) (writes : exit.writes = [exit.response])
      (whole : prefixWithSize response = .ok exit.response)
  | returned (proto : caller.clientProto = .localDoH ∨ caller.clientProto = .trampoline)
      (writes : exit.writes = []) (whole : exit.response = response)

/-- A call was left at its end, with the given flow. -/
structure Completed (p : Proxy) (caller : Caller) (env : CallEnv) (world : World) (U : Prop)
    (flow : Flow) (exit : Exit) : Prop where
  sound : Sound p caller env world U exit.toFlow
  handed : exit.handed = flow.handed
  origin : exit.origin = flow.origin
  completed : exit.completed = true
  delivered : Delivered p caller flow.response exit

theorem truncateFor_ends (h : Sound p caller env world U flow) (hne : flow.response ≠ []) :
    Ends (truncateFor p flow) (fun flow' => Sound p caller env world U flow' ∧
      flow'.handed = flow.handed ∧ flow'.origin = flow.origin ∧ (flow'.response = flow.response ∨
        truncatedResponse p.pkgs.dns flow.response = .ok flow'.response))
      (SoundStop p caller env world U) := by
  unfold truncateFor
  split
  · split
    · exact h.cleared.leaveWith _
    · next response ht =>
      have htraced := h.traced.onward (fun _ hc => hc.truncated ht) fun hnil => absurd hnil hne
      exact ⟨h.answered htraced, rfl, rfl, .inr ht⟩
  · exact ⟨h, rfl, rfl, .inl rfl⟩

theorem deliverUDP_ends (h : Sound p caller env world U flow) (hne : flow.response ≠ [])
    (hproto : caller.clientProto = .udp) :
    Ends (deliverUDP p caller env flow) (Completed p caller env world U flow)
      (SoundStop p caller env world U) := by
  refine (truncateFor_ends h hne).bind fun flow' _ hf => ?_
  obtain ⟨hsound, hhanded, horigin, hwhole⟩ := hf
  split
  · exact hsound.steps
  · refine ⟨?_, hhanded, horigin, rfl, .udp hproto rfl hwhole⟩
    exact hsound.update ⟨rfl, rfl, rfl⟩ (.single (.quiet rfl rfl)) hsound.traced

theorem deliver_ends (h : Sound p caller env world U flow) (charged : Bool) :
    Ends (deliver p caller env flow charged) (Completed p caller env world U flow)
      (SoundStop p caller env world U) := by
  have hfail : ∀ returnCode, Left p caller env world U
      (if charged = true then flow.leaveFailing returnCode else flow.leaveWith returnCode) := by
    intro returnCode
    split
    · exact h.leaveFailing _
    · exact h.leaveWith _
  unfold deliver
  dsimp only
  split
  · exact hfail _
  next hfits =>
  have hne : flow.response ≠ [] := by
    intro hnil
    rw [hnil] at hfits
    exact hfits rfl
  split
  · next hproto => exact deliverUDP_ends h hne hproto
  · next hproto =>
    split
    · exact hfail _
    · next response hp =>
      have htraced := h.traced.onward (fun _ hc => hc.prefixed hp) fun hnil => absurd hnil hne
      exact ⟨h.answered htraced, rfl, rfl, rfl, .tcp hproto rfl hp⟩
  · next hudp htcp =>
    refine ⟨h, rfl, rfl, rfl, .returned ?_ rfl rfl⟩
    cases hc : caller.clientProto with
    | udp => exact absurd hc hudp
    | tcp => exact absurd hc htcp
    | localDoH => exact .inl rfl
    | trampoline => exact .inr rfl

end Phases

end DnscryptProxy
