import WaitLocalAgent.Verification.NetSecurity.Policy

/-! # Pinned requests

What a handled request leaves outside: one answer of the resolver, and at most one request to an
address of that answer. Bodies are read up to the cap. -/

namespace WaitLocalAgent.NetSecurity

open Foundation Program

def Event.resolved? : Event → Option (String × ℕ × Except Failure (List ResolverResult))
  | ⟨.resolve hostname port, answer⟩ => some (hostname, port, answer)
  | _ => none

def Exchange.resolved (e : Exchange) :
    List (String × ℕ × Except Failure (List ResolverResult)) :=
  e.events.filterMap Event.resolved?

/-- The request goes to an address of the answer, every address of which the policy permits, with
the scheme, the port and the path of the caller's request. -/
structure Pinned (lib : Library) (transport : PinnedIpTransport) (request : Request)
    (results : List ResolverResult) (sent : Request) : Prop where
  url : ∃ result ∈ results, ∃ ip, IsAddressResult lib result ip ∧
    sent.url = { request.url with rawHost := lib.compressed ip }
  allowlisted : Allowlisted lib transport.allowedHosts request.url
  permitted : ∀ result ∈ results, ∃ ip,
    IsAddressResult lib result ip ∧ Permitted lib transport request.url ip

/-- `Host` and SNI of the request are `name`. -/
structure NamedAs (request : Request) (name : String) (sent : Request) : Prop where
  host : sent.headers "host" = some { request.url with rawHost := name }.netloc
  sni : sent.extensions "sni_hostname" = some (.text name)

/-- The body has no coding but `identity`, so its bytes are those of the stream. -/
def Plain (lib : Library) (response : Response) : Prop :=
  ∀ encoding, response.headers "content-encoding" = some encoding →
    ∀ value ∈ PinnedIpTransport.encodings lib encoding, value = "identity"

/-- Whatever the transport does for the request is done to a validated address, in the name of the
request's host. -/
structure Exchange.Safe (lib : Library) (transport : PinnedIpTransport) (e : Exchange) : Prop where
  sent_once : e.sent.length ≤ 1
  pinned : ∀ sent ∈ e.sent, ∃ name port results, e.resolved = [(name, port, .ok results)] ∧
    Pinned lib transport e.request results sent ∧ NamedAs e.request name sent ∧
    SameName name e.request.url.rawHost
  plain : ∀ response, e.outcome = .ok response → Plain lib response
  received : e.received.length ≤ transport.maxResponseBytes

/-! ## One request -/

/-- The events of a handled request: what was asked, and what was sent in a name that the policy
admits. -/
structure Outcome (lib : Library) (transport : PinnedIpTransport) (request : Request)
    (events : List Event) (result : Except Failure Response) : Prop where
  sent_once : (events.filterMap Event.sent?).length ≤ 1
  pinned : ∀ sent ∈ events.filterMap Event.sent?, ∃ validated port results,
    events.filterMap Event.resolved? = [(validated.rawHost, port, .ok results)] ∧
    validateProviderOrigin lib (lib.text request.url) transport.allowedHosts
      transport.allowLoopback = .ok validated ∧
    Pinned lib transport request results sent ∧ NamedAs request validated.rawHost sent
  plain : ∀ response, result = .ok response → Plain lib response

section Handle

variable {lib : Library} {transport : PinnedIpTransport} {request : Request}

abbrev unguarded : Protocol (List Event) Action Action.Answer := recorder fun _ _ => True

theorem outcome_of_not_sent {events : List Event} {error : Failure}
    (h : events.filterMap Event.sent? = []) :
    Outcome lib transport request events (.error error) := by
  refine ⟨?_, ?_, ?_⟩
  · simp [h]
  · simp [h]
  · intro response hresponse
    cases hresponse

theorem follows_liftExcept_bind {α β : Type} {Q : List Event → Except Failure β → Prop}
    {events : List Event} {x : Except Failure α} {f : α → Call β}
    (hok : ∀ a, x = .ok a → Follows unguarded Q events (f a).run)
    (herror : ∀ e, x = .error e → Q events (.error e)) :
    Follows unguarded Q events (PinnedIpTransport.liftExcept x >>= f).run := by
  cases x with
  | ok a => exact hok a rfl
  | error e => exact herror e rfl

theorem plain_of_not_refused {response : Response}
    (h : PinnedIpTransport.refusesEncoding lib (response.headers "content-encoding") = false) :
    Plain lib response := by
  intro encoding hencoding value hvalue
  rw [hencoding, PinnedIpTransport.refusesEncoding, Bool.or_eq_false_iff, List.any_eq_false] at h
  simpa using h.2 value hvalue

section Sent

variable {sent : Request} {validated : Url} {port : ℕ} {results : List ResolverResult}
  {answer : Except Failure InnerResponse}

/-- The events after what was sent are closes. -/
structure OnlyCloses (closes : List Event) : Prop where
  sent : closes.filterMap Event.sent? = []
  resolved : closes.filterMap Event.resolved? = []

theorem outcome_of_sent {closes : List Event} {result : Except Failure Response}
    (hvalidated : validateProviderOrigin lib (lib.text request.url) transport.allowedHosts
      transport.allowLoopback = .ok validated)
    (hpinned : Pinned lib transport request results sent)
    (hnamed : NamedAs request validated.rawHost sent) (hcloses : OnlyCloses closes)
    (hplain : ∀ response, result = .ok response → Plain lib response) :
    Outcome lib transport request
      (⟨.resolve validated.rawHost port, .ok results⟩ :: ⟨.send sent, answer⟩ :: closes)
      result := by
  have hsent : (⟨.resolve validated.rawHost port, .ok results⟩ :: ⟨.send sent, answer⟩ ::
      closes : List Event).filterMap Event.sent? = sent :: closes.filterMap Event.sent? := rfl
  have hresolved : (⟨.resolve validated.rawHost port, .ok results⟩ :: ⟨.send sent, answer⟩ ::
      closes : List Event).filterMap Event.resolved? =
        (validated.rawHost, port, .ok results) :: closes.filterMap Event.resolved? := rfl
  rw [hcloses.sent] at hsent
  rw [hcloses.resolved] at hresolved
  refine ⟨?_, ?_, hplain⟩
  · rw [hsent]
    rfl
  · intro other hother
    rw [hsent, List.mem_singleton] at hother
    subst hother
    exact ⟨validated, port, results, hresolved, hvalidated, hpinned, hnamed⟩

theorem follows_acceptResponse (inner : InnerResponse) (events : List Event) :
    Follows unguarded
      (fun events' result => ∃ closes, events' = events ++ closes ∧ OnlyCloses closes ∧
        ∀ response, result = .ok response → Plain lib response)
      events (PinnedIpTransport.acceptResponse lib inner).run := by
  rw [PinnedIpTransport.acceptResponse]
  split
  · refine ⟨trivial, fun closed => ?_⟩
    cases closed with
    | error e => exact ⟨_, rfl, ⟨rfl, rfl⟩, nofun⟩
    | ok _ => exact ⟨_, rfl, ⟨rfl, rfl⟩, nofun⟩
  · rename_i hrefused
    split
    · exact ⟨[], (List.append_nil events).symm, ⟨rfl, rfl⟩, nofun⟩
    · refine ⟨[], (List.append_nil events).symm, ⟨rfl, rfl⟩, ?_⟩
      intro response hresponse
      obtain rfl := Except.ok.inj hresponse
      exact plain_of_not_refused (Bool.eq_false_iff.mpr hrefused)

/-- What the transport does once a request is pinned. -/
theorem follows_exchange
    (hvalidated : validateProviderOrigin lib (lib.text request.url) transport.allowedHosts
      transport.allowLoopback = .ok validated)
    (hpinned : Pinned lib transport request results sent)
    (hnamed : NamedAs request validated.rawHost sent) :
    Follows unguarded (Outcome lib transport request)
      [⟨.resolve validated.rawHost port, .ok results⟩]
      (PinnedIpTransport.exchange lib sent).run := by
  refine ⟨trivial, fun answer => ?_⟩
  cases answer with
  | error e =>
      refine ⟨trivial, fun _ => ?_⟩
      exact outcome_of_sent hvalidated hpinned hnamed ⟨rfl, rfl⟩ nofun
  | ok inner =>
      refine Follows.bind (p := (PinnedIpTransport.acceptResponse lib inner).run)
        (follows_acceptResponse inner _) ?_
      rintro events result ⟨closes, rfl, hcloses, hplain⟩
      cases result with
      | ok response => exact outcome_of_sent hvalidated hpinned hnamed hcloses hplain
      | error e =>
          refine ⟨trivial, fun closed => ?_⟩
          have hlast : OnlyCloses (closes ++ [⟨.closeTransport, closed⟩]) := by
            refine ⟨?_, ?_⟩
            · rw [List.filterMap_append, hcloses.sent]
              rfl
            · rw [List.filterMap_append, hcloses.resolved]
              rfl
          exact outcome_of_sent hvalidated hpinned hnamed hlast nofun

end Sent

theorem Admitted.copyWith_compressed {url validated pinnedUrl : Url} {ip : Address}
    (h : Admitted lib transport url validated)
    (hpinned : lib.copyWith validated (lib.compressed ip) = .ok pinnedUrl) :
    pinnedUrl = { url with rawHost := lib.compressed ip } := by
  obtain ⟨rawHost, hraw, rfl⟩ := copyWith_eq_ok.mp hpinned
  obtain rfl := lib.encodeHost_compressed _ _ hraw
  obtain ⟨_, _, _, _, rfl⟩ := h.copied
  rfl

/-- What an accepted answer says about the addresses, for the request. -/
theorem Admitted.pinned {validated pinnedUrl : Url} {host : String} {ip : Address}
    {results : List ResolverResult} {addresses : List Address}
    (h : Admitted lib transport request.url validated)
    (hhost : lib.decodeHost validated.rawHost = some host)
    (hresults : validateResults lib transport.allowLoopback
      (decide (lib.foldName host ∈ loopbackHosts)) results = .ok addresses)
    (hip : ip ∈ addresses)
    (hpinned : lib.copyWith validated (lib.compressed ip) = .ok pinnedUrl) :
    Pinned lib transport request results
      (transport.innerRequest request validated pinnedUrl) := by
  obtain ⟨haddress, hresult, hchecked⟩ := validateResults_spec hresults
  obtain ⟨result, hmem, hipresult⟩ := hresult ip hip
  refine ⟨⟨result, hmem, ip, hipresult, h.copyWith_compressed hpinned⟩, h.allowlisted, ?_⟩
  intro other hother
  obtain ⟨ip', hip', hresult'⟩ := haddress other hother
  refine ⟨ip', hresult', ?_⟩
  rcases hchecked ip' hip' with ⟨hloopback, hallow, hip'⟩ | hroutable
  · exact .inr ⟨hallow, h.isLoopbackHost hhost (of_decide_eq_true hloopback), hip'⟩
  · exact .inl hroutable

theorem Admitted.namedAs {validated pinnedUrl : Url}
    (h : Admitted lib transport request.url validated) :
    NamedAs request validated.rawHost (transport.innerRequest request validated pinnedUrl) := by
  refine ⟨?_, ?_⟩
  · obtain ⟨_, _, _, _, rfl⟩ := h.copied
    rfl
  · rfl

theorem follows_handleRequest (lib : Library) (transport : PinnedIpTransport)
    (request : Request) :
    Follows unguarded (Outcome lib transport request) []
      (transport.handleRequest lib request).run := by
  refine follows_liftExcept_bind (fun validated hvalidated => ?_)
    fun e _ => outcome_of_not_sent rfl
  have hadmitted := admitted_of_validateProviderOrigin hvalidated
  refine follows_liftExcept_bind (fun host hhost => ?_) fun e _ => outcome_of_not_sent rfl
  refine ⟨trivial, fun answer => ?_⟩
  cases answer with
  | error e =>
      cases e with
      | osError => exact outcome_of_not_sent rfl
      | _ => exact outcome_of_not_sent rfl
  | ok results =>
      refine follows_liftExcept_bind (fun addresses hresults => ?_)
        fun e _ => outcome_of_not_sent rfl
      refine follows_liftExcept_bind (fun ip hip => ?_) fun e _ => outcome_of_not_sent rfl
      refine follows_liftExcept_bind (fun pinnedUrl hpinned => ?_)
        fun e _ => outcome_of_not_sent rfl
      have hmem : ip ∈ addresses := List.mem_of_head? (orRaise_eq_ok.mp hip)
      exact follows_exchange hvalidated
        (hadmitted.pinned (host_eq_ok.mp hhost) hresults hmem hpinned) hadmitted.namedAs

end Handle

/-! ## Bodies -/

section Bodies

variable {lib : Library} {transport : PinnedIpTransport}

theorem close_bytesSeen (stream : CappedResponseStream) (closes : Closes) :
    (stream.close closes).1.bytesSeen = stream.bytesSeen := by
  rw [CappedResponseStream.close]
  split <;> rfl

theorem fail_spec (stream : CappedResponseStream) (closes : Closes) (error : Failure) :
    (stream.fail closes error).1.bytesSeen = stream.bytesSeen ∧
      ∃ e, (stream.fail closes error).2 = .raises e := by
  have hseen := close_bytesSeen stream closes
  rw [CappedResponseStream.fail]
  rcases hclose : stream.close closes with ⟨closed, result⟩
  rw [hclose] at hseen
  cases result with
  | ok _ => exact ⟨hseen, error, rfl⟩
  | error e => exact ⟨hseen, e, rfl⟩

/-- A round of the loop hands a chunk on only if all bytes seen so far are within the cap. -/
theorem next_spec (stream : CappedResponseStream) (cap : ℕ) (read : Read) (closes : Closes) :
    stream.bytesSeen ≤ (stream.next cap read closes).1.bytesSeen ∧
      ∀ bytes, (stream.next cap read closes).2 = .yields bytes →
        (stream.next cap read closes).1.bytesSeen = stream.bytesSeen + bytes.length ∧
          stream.bytesSeen + bytes.length ≤ cap := by
  cases read with
  | chunk bytes =>
      simp only [CappedResponseStream.next]
      split
      · obtain ⟨hseen, e, he⟩ := fail_spec
          { stream with bytesSeen := stream.bytesSeen + bytes.length } closes
          (.netSecurity "provider response exceeds the bounded size")
        rw [hseen, he]
        exact ⟨Nat.le_add_right _ _, nofun⟩
      · rename_i hcap
        refine ⟨Nat.le_add_right _ _, ?_⟩
        intro bytes' hyields
        obtain rfl := Delivery.yields.inj hyields
        exact ⟨rfl, Nat.le_of_not_lt hcap⟩
  | stop =>
      have hseen := close_bytesSeen stream closes
      simp only [CappedResponseStream.next]
      rcases hclose : stream.close closes with ⟨closed, result⟩
      rw [hclose] at hseen
      cases result with
      | ok _ => exact ⟨hseen.ge, nofun⟩
      | error e => exact ⟨hseen.ge, nofun⟩
  | raises error =>
      obtain ⟨hseen, e, he⟩ := fail_spec stream closes error
      simp only [CappedResponseStream.next]
      rw [hseen, he]
      exact ⟨Nat.le_refl _, nofun⟩

/-- The caller got no byte that the stream has not seen, and no more than the cap. -/
def Exchange.Capped (transport : PinnedIpTransport) (e : Exchange) : Prop :=
  e.received.length ≤ e.stream.bytesSeen ∧ e.received.length ≤ transport.maxResponseBytes

theorem Exchange.Capped.next {e : Exchange} (h : e.Capped transport) (read : Read)
    (closes : Closes) : (e.next transport read closes).Capped transport := by
  obtain ⟨hseen, hcap⟩ := h
  rw [Exchange.next]
  cases e.outcome with
  | error _ => exact ⟨hseen, hcap⟩
  | ok _ =>
      obtain ⟨hmono, hyields⟩ := next_spec e.stream transport.maxResponseBytes read closes
      rcases hnext : e.stream.next transport.maxResponseBytes read closes with ⟨stream, delivery⟩
      rw [hnext] at hmono hyields
      cases delivery with
      | yields bytes =>
          obtain ⟨hgrown, hbound⟩ := hyields bytes rfl
          have hlength : (e.received ++ bytes).length = e.received.length + bytes.length :=
            List.length_append
          simp only at hgrown hbound
          refine ⟨?_, ?_⟩
          · simp only [hlength, hgrown]
            omega
          · simp only [hlength]
            omega
      | stops => exact ⟨hseen.trans hmono, hcap⟩
      | raises _ => exact ⟨hseen.trans hmono, hcap⟩

end Bodies

/-! ## Runs -/

variable {requests : Set Request}

section Runs

variable {lib : Library} {transport : PinnedIpTransport}

/-- Every exchange of the session is one of a handled request, and its body is capped. -/
structure Kept (lib : Library) (transport : PinnedIpTransport) (requests : Set Request)
    (e : Exchange) : Prop where
  mem : e.request ∈ requests
  outcome : Outcome lib transport e.request e.events e.outcome
  capped : e.Capped transport

theorem kept_handled {request : Request}
    (hmem : request ∈ requests) (answers : ℕ → (a : Action) → a.Answer) :
    Kept lib transport requests (handled lib transport request answers) := by
  have houtcome := (follows_handleRequest lib transport request).traced answers
  rw [List.nil_append] at houtcome
  exact ⟨hmem, houtcome, Nat.le_refl 0, Nat.zero_le _⟩

theorem Kept.next {e : Exchange}
    (h : Kept lib transport requests e) (read : Read) (closes : Closes) :
    Kept lib transport requests (e.next transport read closes) := by
  have hsame : (e.next transport read closes).request = e.request ∧
      (e.next transport read closes).events = e.events ∧
      (e.next transport read closes).outcome = e.outcome := by
    rw [Exchange.next]
    split
    · exact ⟨rfl, rfl, rfl⟩
    · split <;> exact ⟨rfl, rfl, rfl⟩
  obtain ⟨hrequest, hevents, houtcome⟩ := hsame
  refine ⟨?_, ?_, h.capped.next read closes⟩
  · rw [hrequest]
    exact h.mem
  · rw [hrequest, hevents, houtcome]
    exact h.outcome

theorem Kept.close {e : Exchange}
    (h : Kept lib transport requests e) (closes : Closes) :
    Kept lib transport requests (e.close closes) := by
  refine ⟨h.mem, h.outcome, ?_, h.capped.2⟩
  show e.received.length ≤ (e.stream.close closes).1.bytesSeen
  rw [close_bytesSeen]
  exact h.capped.1

theorem forall_mem_modify {α : Type} {P : α → Prop} {f : α → α} {as : List α}
    (h : ∀ a ∈ as, P a) (hf : ∀ a, P a → P (f a)) (i : ℕ) : ∀ a ∈ as.modify i f, P a := by
  intro a ha
  obtain ⟨n, hn, rfl⟩ := List.mem_iff_getElem.mp ha
  rw [List.getElem_modify]
  split
  · exact hf _ (h _ (List.getElem_mem _))
  · exact h _ (List.getElem_mem _)

theorem kept_run {steps : List Step}
    (hsteps : ∀ s ∈ steps, ∀ r, s.request? = some r → r ∈ requests) :
    ∀ e ∈ (session lib transport).run steps, Kept lib transport requests e := by
  induction steps using List.reverseRecOn with
  | nil =>
      intro e he
      cases he
  | append_singleton steps s ih =>
      have hkept := ih fun t ht => hsteps t (List.mem_append_left [s] ht)
      rw [Machine.run_concat]
      show ∀ e ∈ step lib transport ((session lib transport).run steps) s, _
      cases s with
      | handle request answers =>
          have hmem : request ∈ requests :=
            hsteps (.handle request answers)
              (List.mem_append_right steps (List.mem_singleton.mpr rfl)) request rfl
          intro e he
          rcases List.mem_append.mp he with he | he
          · exact hkept e he
          · rw [List.mem_singleton.mp he]
            exact kept_handled hmem answers
      | next index read closes =>
          exact forall_mem_modify hkept (fun e h => h.next read closes) index
      | close index closes =>
          exact forall_mem_modify hkept (fun e h => h.close closes) index

/-- Every exchange is safe once the host of its request is kept by case folding. -/
theorem Kept.safe {e : Exchange}
    (h : Kept lib transport requests e)
    (hkept : ∀ validated, validateProviderOrigin lib (lib.text e.request.url)
      transport.allowedHosts transport.allowLoopback = .ok validated →
        KeptByFolding lib e.request.url) : e.Safe lib transport := by
  refine ⟨h.outcome.sent_once, ?_, h.outcome.plain, h.capped.2⟩
  intro sent hsent
  obtain ⟨validated, port, results, hresolved, hvalidated, hpinned, hnamed⟩ :=
    h.outcome.pinned sent hsent
  refine ⟨validated.rawHost, port, results, hresolved, hpinned, hnamed, ?_⟩
  exact (admitted_of_validateProviderOrigin hvalidated).sameName_iff.mpr
    (hkept validated hvalidated)

/-! ## An admitted request is sent -/

end Runs

/-! ## A host that case folding changes -/

end WaitLocalAgent.NetSecurity
