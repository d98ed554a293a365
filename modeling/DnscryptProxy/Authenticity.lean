import DnscryptProxy.Phases.Call

/-! Which bytes `processIncomingQuery` may return. `Decrypt` and the exchange functions
return data together with an error, and the exits after a failed exchange return what
the variable `response` holds then. So a reply that `Decrypt` rejects is returned,
unless a stale answer takes its place: `returned_vouched_iff` says that this is the
only way in which bytes are returned that nobody vouches for. -/

namespace DnscryptProxy

open Library

/-- Where the returned bytes come from is fit to be returned: a message that the plugins
synthesized, found in the cache or put aside as a stale answer, or a payload that was accepted from
the server. -/
def Vouched (p : Proxy) (env : CallEnv) (exit : Exit) : Prop :=
  match exit.origin with
  | .localMsg msg => exit.st.Holds msg ∧
      ∃ packed, p.pkgs.dns.pack msg = .ok packed ∧ ComesFrom p packed exit.response
  | .accepted payload => Accepted p env payload ∧ ComesFrom p payload exit.response
  | .nothing => False
  | .unverified _ => False

/-- The query is forwarded to a DNSCrypt server, what is read from it last is rejected
by `Decrypt`, and there is no stale answer. -/
def RejectedUpstream (p : Proxy) (caller : Caller) (env : CallEnv) (world : World)
    (query : Bytes) : Prop :=
  ∃ flow serverInfo query', dispatch p caller env world query =
    .ok (.forward flow serverInfo query') ∧ Unauthenticated p env flow serverInfo query'

section Rejected

variable {p : Proxy} {caller : Caller} {env : CallEnv} {world : World} {query : Bytes}

theorem fetch_unauthenticated {flow : Flow} {serverInfo : ServerInfo}
    (h : Unauthenticated p env flow serverInfo query) :
    ∃ exit data, fetch p env flow serverInfo query = .error (.exit exit) ∧ data ≠ [] ∧
      exit.response = data ∧ exit.origin = .unverified data := by
  obtain ⟨proto, encrypted, hprepared, hstale, hrejected⟩ := h
  obtain ⟨exchanged, hlast, herr, hne⟩ := replyRejected_iff.mp hrejected
  have hstale : (flow.noticed .begin).st.stale = none := hstale
  obtain ⟨exit, hsettle, hresponse, horigin⟩ := settle_leaves (p := p) herr hstale
  exact ⟨exit, exchanged.data, (fetch_settles hprepared hlast).trans hsettle, hne, hresponse, horigin⟩

theorem serve_unauthenticated {subquery : Subquery} {exit : Exit}
    (h : RejectedUpstream p caller env world query)
    (he : serve p caller env subquery world query = .ok exit) :
    ∃ data, data ≠ [] ∧ exit.response = data ∧ exit.origin = .unverified data := by
  obtain ⟨flow, serverInfo, query', hdispatch, hu⟩ := h
  obtain ⟨exit', data, hfetch, hne, hr, ho⟩ := fetch_unauthenticated hu
  have hhandle : handle p caller env subquery world query = .ok exit' := by
    simp only [handle, phases, hdispatch, hfetch, bind, Except.bind]
  have hleave : leave p exit' = .ok exit := by
    rw [serve, hhandle] at he
    exact he
  obtain rfl := eq_of_leave hleave
  exact ⟨data, hne, hr, ho⟩

theorem not_rejectedUpstream {serverInfo : ServerInfo} (h : env.server = some serverInfo)
    (hproto : serverInfo.proto ≠ .dnscrypt) : ¬RejectedUpstream p caller env world query := by
  rintro ⟨flow, serverInfo', query', hdispatch, proto, encrypted, hprepared, -⟩
  obtain rfl := Option.some.inj (h.symm.trans (dispatch_forwarded hdispatch).server)
  exact hproto (prepare_madeOf hprepared).1

end Rejected

/-- What a call returns is vouched for, except where a reply was rejected and no stale
answer was there. -/
theorem returned_vouched_iff (p : Proxy) (caller : Caller) (env : CallEnv) (envs : List CallEnv)
    (world : World) (query : Bytes) (exit : Exit)
    (h : processIncomingQuery p caller env envs world query = .ok exit) :
    (exit.response ≠ [] → Vouched p env exit) ↔ ¬RejectedUpstream p caller env world query := by
  constructor
  · intro hv hrejected
    obtain ⟨data, hne, hr, ho⟩ := serve_unauthenticated hrejected h
    have hvouched := hv (hr ▸ hne)
    unfold Vouched at hvouched
    rw [ho] at hvouched
    exact hvouched
  · intro hrejected hne
    have hsound := ((processIncomingQuery_ends (U := False) envs query
      fun flow serverInfo query' ha hu => hrejected ⟨flow, serverInfo, query', ha, hu⟩).of_ok h).sound
    have htraced := hsound.traced
    unfold Vouched
    cases ho : exit.origin <;> rw [ho] at htraced
    · exact hne htraced
    · exact htraced
    · exact htraced
    · exact htraced hne

namespace Sample

theorem doh_reply_vouched :
    ∃ exit, processIncomingQuery (proxy .bare dns) client (answering 0) [] world queryPacket =
      .ok exit ∧ exit.response = replyPacket 60 ∧ Vouched (proxy .bare dns) (answering 0) exit :=
  ⟨_, rfl, rfl, (returned_vouched_iff (proxy .bare dns) client (answering 0) [] world queryPacket _
    rfl).mpr (not_rejectedUpstream rfl (by decide)) (by decide)⟩

/-- A client of the local DoH server. -/
def dohClient : Caller := .localDoH [192, 0, 2, 100] 5353

/-- Something that is no DNSCrypt response at all. -/
def garbage : Bytes := "HTTP/1.1 400 Bad Request".toList.map fun c => UInt8.ofNat c.toNat

/-- A DNSCrypt server, or whoever can send in its place, answers with garbage. -/
def spoofed : CallEnv := env .dnscrypt 0 (.error (.plain "unused")) garbage

theorem garbage_returned_to_local_doh :
    ∃ exit, processIncomingQuery (proxy .bare dns) dohClient spoofed [] world queryPacket =
      .ok exit ∧ exit.response = garbage ∧
      ¬(exit.response ≠ [] → Vouched (proxy .bare dns) spoofed exit) :=
  ⟨_, rfl, rfl, fun h => h (by decide)⟩

end Sample

end DnscryptProxy
