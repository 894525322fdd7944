/-
Pages of other origins. The origins whose pages may read responses are
configured as one text: entries between commas, blanks around them
(`IsEntry`). An entry that cannot be the value of a header is passed
over. Every response to a request that names its origin carries that
origin if it is one of the entries left, and else none
(`Service.AnswersOrigins`): whatever endpoint is reached, it sends no
headers of its own (`headers_route`), and all that a response has are
those that are added last.

The wildcard can be the value of a header, so it is not passed over,
and the list of origins panics at it: the service is not built. So the
origins of a text are answered as they should be if and only if the
wildcard is not among its entries (`allowsOrigins_iff`).
-/
import Tenancy.Proofs.Api.Responses
import Tenancy.Proofs.Text.Ascii
import Tenancy.Proofs.Text.Pieces

namespace Tenancy

open Http Program Text

-- ========================================================== vocabulary

/-- An entry of a list is one of the texts between its commas, without the
blanks around it. -/
def IsEntry (text entry : String) : Prop :=
  ∃ parts : List (List Char),
    parts ≠ [] ∧ text.toList = [','].intercalate parts
    ∧ (∀ part ∈ parts, ',' ∉ part) ∧ ∃ part ∈ parts, Trims part entry.toList

/-- The value of a header has no control characters but tabs: of its bytes
none is below 32 or is 127. -/
def IsHeaderValue (s : String) : Prop :=
  ∀ b ∈ utf8 s, b.toNat = 9 ∨ (32 ≤ b.toNat ∧ b.toNat ≠ 127)

/-- The origins that a text stands for. -/
def NamesOrigin (text origin : String) : Prop :=
  IsEntry text origin ∧ IsHeaderValue origin

/-- All values of one name. -/
def Http.Headers.values (headers : Headers) (name : String) : List String :=
  (headers.filter fun h => sameIgnoringCase h.1 name).map Prod.snd

/-- The origins whose pages a response lets read it. -/
def Http.Response.allowedOrigins (response : Response) : List String :=
  response.headers.values "access-control-allow-origin"

/-- A request from a page of one of the origins that a text stands for is
responded to with that origin, and one from any other page with none. There
is a response to every request, but for a login whose token would expire
beyond the calendar. -/
structure Service.AnswersOrigins (service : Service) (text : String) :
    Prop where
  responds {σ : Type} (world : World apiInterface σ) (st : σ)
    (now : Timestamp) (request : Request)
    (hlogin : Endpoint.ofPath? request.path = some (.toAnyone .login) →
      ∀ user, service.facilities.tokens.issue now.seconds user ≠ .panics) :
    ∃ response,
      ((service.handle now request).run world st).1 = .returns response
  named {σ : Type} (world : World apiInterface σ) (st : σ)
    (now : Timestamp) {request : Request} {origin : String}
    {response : Response}
    (h : request.headers.get? "origin" = some origin)
    (hresponse :
      ((service.handle now request).run world st).1 = .returns response)
    (hnamed : NamesOrigin text origin) :
    response.allowedOrigins = [origin]
  others {σ : Type} (world : World apiInterface σ) (st : σ)
    (now : Timestamp) {request : Request} {origin : String}
    {response : Response}
    (h : request.headers.get? "origin" = some origin)
    (hresponse :
      ((service.handle now request).run world st).1 = .returns response)
    (hnamed : ¬NamesOrigin text origin) :
    response.allowedOrigins = []

/-- A configuration makes a service, and that answers the origins of a text. -/
def AllowsOrigins (config : Config) (text : String) : Prop :=
  ∀ limitCap policies hasDatabase, ∃ service,
    Service.ofConfig config limitCap policies hasDatabase = .returns service
      ∧ service.AnswersOrigins text

variable {σ : Type} {world : World apiInterface σ} {st : σ} {service : Service}
  {cors : Cors} {now : Timestamp} {request : Request} {response : Response}
  {text entry origin s : String} {entries : List String} {config : Config}

-- ============================================================ entries

theorem mem_readList_iff :
    entry ∈ Config.readList text
      ↔ ∃ piece ∈ pieces (· == ',') text.toList, Trims piece entry.toList := by
  rw [Config.readList, splitOn, List.map_map, List.mem_map]
  refine exists_congr fun piece => and_congr_right fun _ => ?_
  rw [trims_iff, Function.comp_apply, trim, String.toList_ofList,
    ← String.toList_inj, String.toList_ofList]
  exact eq_comm

/-- The entries of a text are what it is read as. -/
theorem isEntry_iff : IsEntry text entry ↔ entry ∈ Config.readList text := by
  rw [mem_readList_iff]
  constructor
  · rintro ⟨parts, hne, htext, hparts, part, hpart, htrims⟩
    have huncut : ∀ part ∈ parts, ∀ c ∈ part, (c == ',') = false := by
      intro part hpart c hc
      refine beq_eq_false_iff_ne.2 ?_
      rintro rfl
      exact hparts part hpart hc
    rw [htext, pieces_intercalate_of_forall_not (· == ',') rfl hne huncut]
    exact ⟨part, hpart, htrims⟩
  · rintro ⟨piece, hpiece, htrims⟩
    refine ⟨_, pieces_ne_nil _ _, (intercalate_pieces ',' text.toList).symm,
      ?_, piece, hpiece, htrims⟩
    intro piece hpiece hcomma
    exact absurd (eq_false_of_mem_pieces hpiece ',' hcomma) (by decide)

-- ============================================================= values

/-- A character may stand in a value if its bytes may. -/
theorem isHeaderChar_iff (c : Char) :
    (c = '\t' || (0x20 ≤ c.toNat && c.toNat ≠ 0x7F)) = true
      ↔ ∀ b ∈ utf8OfChar c, b.toNat = 9 ∨ (32 ≤ b.toNat ∧ b.toNat ≠ 127) := by
  have htab : c = '\t' ↔ c.toNat = 9 := Char.toNat_inj.symm
  simp only [Bool.or_eq_true, Bool.and_eq_true, decide_eq_true_eq, htab]
  by_cases hc : c.toNat < 0x80
  · rw [utf8OfChar_of_ascii hc, List.forall_mem_singleton,
      toNat_toUInt8_of_ascii hc]
  · have hhigh : 0x80 ≤ c.toNat := Nat.le_of_not_lt hc
    constructor
    · intro _ b hb
      have hbyte := le_of_mem_utf8OfChar hhigh hb
      omega
    · intro _
      omega

theorem isHeaderValue_iff : Cors.isHeaderValue s = true ↔ IsHeaderValue s := by
  rw [Cors.isHeaderValue, List.all_eq_true, IsHeaderValue, utf8]
  simp only [isHeaderChar_iff, List.mem_flatMap]
  constructor
  · rintro h b ⟨c, hc, hb⟩
    exact h c hc b hb
  · intro h c hc b hb
    exact h b ⟨c, hc, hb⟩

-- ============================================================ headers

/-- What a handler ends with has no headers of its own. -/
theorem headers_respond {handler : Handler Json}
    (h : ((Service.respond handler).run world st).1 = .returns response) :
    response.headers = [] := by
  rw [Service.run_respond] at h
  cases hresult : (handler.run.run world st).1 with
  | ok data =>
    rw [hresult] at h
    cases h
    rfl
  | error refusal =>
    rw [hresult] at h
    cases refusal <;> cases h <;> rfl

theorem headers_health {facilities : Facilities} :
    ((Handler.health facilities now).run world st).1.headers = [] := by
  unfold Handler.health
  by_cases hnone : (!facilities.hasDatabase) = true
  · rw [if_pos hnone]
    rfl
  · rw [if_neg hnone]
    show (Prod.fst ((Program.bind (ApiProgram.ofDatabase _) _).run world st)
      : Response).headers = []
    rw [run_bind]
    split <;> rfl

theorem headers_answerAt {endpoint : Endpoint}
    (h : ((service.answerAt now request endpoint).run world st).1
      = .returns response) :
    response.headers = [] := by
  match endpoint with
  | .toAnyone .health =>
    unfold Service.answerAt at h
    change ((Program.bind (Handler.health _ _) _).run world st).1 = _ at h
    rw [run_bind] at h
    cases h
    exact headers_health
  | .toAnyone .login => exact headers_respond h
  | .guarded _ => exact headers_respond h

/-- No endpoint sends headers. -/
theorem headers_route
    (h : ((service.route now request).run world st).1 = .returns response) :
    response.headers = [] := by
  unfold Service.route at h
  cases hpath : Endpoint.ofPath? request.path with
  | none =>
    rw [hpath] at h
    cases h
    rfl
  | some endpoint =>
    rw [hpath] at h
    by_cases hanswers : endpoint.answers request.method = true
    · simp only [if_pos hanswers] at h
      change ((Program.bind _ _).run world st).1 = _ at h
      rw [run_bind] at h
      cases houtcome :
          ((service.answerAt now request endpoint).run world st).1 with
      | panics =>
        rw [houtcome] at h
        cases h
      | returns answer =>
        rw [houtcome] at h
        cases h
        have hheaders : answer.headers = [] := headers_answerAt houtcome
        show (if request.method = "HEAD" then answer.headOnly
          else answer).headers = []
        split <;> exact hheaders
    · simp only [if_neg hanswers] at h
      cases h
      rfl

theorem allowedOrigins_addHeaders {response : Response} {headers : Headers} :
    (response.addHeaders headers).allowedOrigins
      = response.allowedOrigins
        ++ headers.values "access-control-allow-origin" := by
  rw [Response.allowedOrigins, Response.addHeaders, Headers.values,
    List.filter_append, List.map_append]
  rfl

/-- All that a response says of origins is what the service adds to it. -/
theorem allowedOrigins_handle (hcors : service.cors = some cors)
    (h : ((service.handle now request).run world st).1 = .returns response) :
    response.allowedOrigins
      = (cors.originHeaders request).values "access-control-allow-origin" := by
  unfold Service.handle at h
  rw [hcors] at h
  by_cases hoptions : request.method = "OPTIONS"
  · simp only [if_pos hoptions] at h
    cases h
    rw [Cors.options, allowedOrigins_addHeaders, Headers.values,
      List.filter_append, List.map_append]
    exact List.append_nil _
  · simp only [if_neg hoptions] at h
    change ((Program.bind _ _).run world st).1 = _ at h
    rw [run_bind] at h
    cases houtcome : ((service.route now request).run world st).1 with
    | panics =>
      rw [houtcome] at h
      cases h
    | returns answer =>
      rw [houtcome] at h
      cases h
      rw [allowedOrigins_addHeaders, Response.allowedOrigins,
        headers_route houtcome]
      rfl

theorem values_singleton (name value : String) :
    Headers.values [(name, value)] name = [value] := by
  have hsame : sameIgnoringCase name name = true := beq_self_eq_true _
  simp only [Headers.values, List.filter_cons_of_pos, hsame]
  rfl

theorem values_originHeaders
    (h : request.headers.get? "origin" = some origin) :
    (cors.originHeaders request).values "access-control-allow-origin"
      = if origin ∈ cors.origins then [origin] else [] := by
  rw [Cors.originHeaders, h]
  by_cases hmem : origin ∈ cors.origins
  · have hcontains : cors.origins.contains origin = true :=
      List.contains_iff_mem.2 hmem
    simp only [if_pos hmem, if_pos hcontains]
    exact values_singleton _ origin
  · have hcontains : ¬cors.origins.contains origin = true :=
      fun h => hmem (List.contains_iff_mem.1 h)
    simp only [if_neg hmem, if_neg hcontains]
    rfl

-- ======================================================== configuration

/-- The list panics at the wildcard, which is not passed over. -/
theorem ofEntries_eq : Cors.ofEntries entries
    = if "*" ∈ entries then .panics
      else .returns ⟨entries.filter Cors.isHeaderValue⟩ := by
  have hstar :
      (entries.filter Cors.isHeaderValue).contains "*" = true
        ↔ "*" ∈ entries := by
    rw [List.contains_iff_mem, List.mem_filter]
    exact and_iff_left (by decide)
  rw [Cors.ofEntries, Cors.list]
  by_cases hmem : "*" ∈ entries
  · rw [if_pos hmem, if_pos (hstar.2 hmem)]
  · rw [if_neg hmem, if_neg (mt hstar.1 hmem)]

theorem ofConfig_of_wildcard (hcors : config.security.enableCors = true)
    (hstar : "*" ∈ config.security.corsOrigins) (limitCap : Option Int)
    (policies : Registry) (hasDatabase : Bool) :
    Service.ofConfig config limitCap policies hasDatabase = .panics := by
  unfold Service.ofConfig
  simp only [hcors, if_true, ofEntries_eq, if_pos hstar]
  rfl

/-- Without the wildcard a service is built, for the entries that can be
values. -/
theorem exists_service (hcors : config.security.enableCors = true)
    (hstar : "*" ∉ config.security.corsOrigins) (limitCap : Option Int)
    (policies : Registry) (hasDatabase : Bool) :
    ∃ service,
      Service.ofConfig config limitCap policies hasDatabase = .returns service
        ∧ service.cors
          = some ⟨config.security.corsOrigins.filter Cors.isHeaderValue⟩ := by
  unfold Service.ofConfig
  simp only [hcors, if_true, ofEntries_eq, if_neg hstar]
  exact ⟨_, rfl, rfl⟩

theorem not_allowsOrigins_of_wildcard
    (hcors : config.security.enableCors = true)
    (hstar : "*" ∈ config.security.corsOrigins) :
    ¬AllowsOrigins config text := by
  intro hallows
  obtain ⟨service, hservice, -⟩ := hallows none .standard false
  rw [ofConfig_of_wildcard hcors hstar] at hservice
  cases hservice

theorem corsOrigins_of_set {env : Environment}
    (htext : env "SECURITY_CORS_ORIGINS" = some text) :
    (Config.ofEnvironment env).security.corsOrigins
      = Config.readList text := by
  show ((env "SECURITY_CORS_ORIGINS").bind (some ∘ Config.readList)).getD _ = _
  rw [htext]
  rfl

/-- A service whose origins are the entries of a text that can be values
answers the origins of the text. -/
theorem answersOrigins_of_cors
    (hcors : service.cors
      = some ⟨(Config.readList text).filter Cors.isHeaderValue⟩) :
    service.AnswersOrigins text := by
  have hnames : ∀ origin, NamesOrigin text origin
      ↔ origin ∈ (Config.readList text).filter Cors.isHeaderValue := by
    intro origin
    rw [NamesOrigin, isEntry_iff, ← isHeaderValue_iff, List.mem_filter]
  constructor
  · intro σ world st now request hlogin
    exact Service.handle_returns hlogin
  · intro σ world st now request origin response horigin hresponse hnamed
    rw [allowedOrigins_handle hcors hresponse, values_originHeaders horigin,
      if_pos ((hnames origin).1 hnamed)]
  · intro σ world st now request origin response horigin hresponse hnamed
    rw [allowedOrigins_handle hcors hresponse, values_originHeaders horigin,
      if_neg (mt (hnames origin).2 hnamed)]

/-- The service is built, and every response to a request with an origin
carries that origin if the configured text names it and else none: this is so
in an environment if and only if the wildcard is no entry of the text. -/
theorem allowsOrigins_iff (env : Environment) {text : String}
    (htext : env "SECURITY_CORS_ORIGINS" = some text)
    (hcors : (Config.ofEnvironment env).security.enableCors = true) :
    AllowsOrigins (Config.ofEnvironment env) text ↔ ¬IsEntry text "*" := by
  rw [isEntry_iff, ← corsOrigins_of_set htext]
  constructor
  · intro hallows hstar
    exact not_allowsOrigins_of_wildcard hcors hstar hallows
  · intro hstar limitCap policies hasDatabase
    obtain ⟨service, hservice, horigins⟩ :=
      exists_service hcors hstar limitCap policies hasDatabase
    rw [corsOrigins_of_set htext] at horigins
    exact ⟨service, hservice, answersOrigins_of_cors horigins⟩

/-- An environment that names two origins, between them an entry that cannot be
the value of a header. -/
def twoOrigins : Environment :=
  .ofList
    [("SECURITY_CORS_ORIGINS",
      " http://a.test , http://b\x7f.test,http://c.test")]

/-- There, the origins are answered. -/
theorem twoOrigins_allowed :
    AllowsOrigins (Config.ofEnvironment twoOrigins)
      " http://a.test , http://b\x7f.test,http://c.test" :=
  (allowsOrigins_iff twoOrigins rfl (by decide)).2 fun h =>
    absurd (isEntry_iff.1 h) (by decide)

/-- An environment that names an origin and the wildcard. -/
def wildcardAmongOrigins : Environment :=
  .ofList [("SECURITY_CORS_ORIGINS", "http://a.test,*")]

/-- There, the origin is named and can be the value of a header, and building
the service that would answer it panics. -/
theorem wildcard_keeps_service_from_starting :
    NamesOrigin "http://a.test,*" "http://a.test"
      ∧ (∀ limitCap policies hasDatabase,
          Service.ofConfig (Config.ofEnvironment wildcardAmongOrigins) limitCap
            policies hasDatabase
            = .panics)
      ∧ ¬AllowsOrigins (Config.ofEnvironment wildcardAmongOrigins)
        "http://a.test,*" := by
  have hcors : (Config.ofEnvironment wildcardAmongOrigins).security.enableCors
      = true := by decide
  have hstar :
      "*" ∈ (Config.ofEnvironment
        wildcardAmongOrigins).security.corsOrigins := by decide
  exact ⟨⟨isEntry_iff.2 (by decide), isHeaderValue_iff.1 (by decide)⟩,
    ofConfig_of_wildcard hcors hstar,
    not_allowsOrigins_of_wildcard hcors hstar⟩

end Tenancy
