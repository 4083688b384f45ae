import Federation.Proofs.Resolver.Talks
import Federation.Proofs.Resolver.Targets

/-!
# Where a token comes from

A token stands ready in four places at most: with the caller and in three settings (`TokenSource.ready`). The first
place that is not silent gives it, and then nothing is sent. Only when all four are silent do the server token and the
email address count, and only if both are there is a request made, one. So as long as a token stands ready, nothing that
these two hold can be seen from outside (`obtain_iff_first`).
-/

namespace Federation

namespace TokenSource
variable {env env' : Environment} {explicit : Option String} {s : TokenSource} {t : String}

/-- The places in which a token may stand ready, in order. -/
def ready : List TokenSource :=
  [.explicit, .environment "ZE_SECRET_TOKEN", .environment "ZE_AUTH_TOKEN", .environment "ZE_TOKEN"]

/-- The settings for an exchange. -/
def serverToken : TokenSource := .environment "ZE_SERVER_TOKEN"

def userEmail : TokenSource := .environment "ZE_USER_EMAIL"

/-- The text that stands in a place; in an exchange there is none before it was made. -/
def raw? (env : Environment) (explicit : Option String) : TokenSource → Option String
  | .explicit => explicit
  | .environment setting => env.lookup setting
  | .exchange => none

/-- A place holds a text that is not blank; what counts of it is `t`, without white space at its ends. -/
def Holds (env : Environment) (explicit : Option String) (s : TokenSource) (t : String) : Prop :=
  ∃ raw, s.raw? env explicit = some raw ∧ isBlank raw = false ∧ trim raw = t

/-- Nothing stands in a place, or nothing but white space. -/
def IsSilent (env : Environment) (explicit : Option String) (s : TokenSource) : Prop :=
  ∀ raw, s.raw? env explicit = some raw → isBlank raw = true

/-- The token that stands ready in a place. -/
def offer? (env : Environment) (explicit : Option String) (s : TokenSource) : Option AuthToken :=
  ((s.raw? env explicit).bind nonBlank?).map (⟨·, s⟩)

theorem holds_iff : s.Holds env explicit t ↔ (s.raw? env explicit).bind nonBlank? = some t := by
  simp only [Holds, Option.bind_eq_some_iff, nonBlank?_eq_some]

theorem isSilent_iff : s.IsSilent env explicit ↔ (s.raw? env explicit).bind nonBlank? = none := by
  rw [Option.bind_eq_none_iff, IsSilent]
  refine forall₂_congr fun raw _ => ?_
  cases h : isBlank raw <;> simp [nonBlank?, h]

theorem offer?_eq_some {token : AuthToken} :
    s.offer? env explicit = some token ↔ token.source = s ∧ s.Holds env explicit token.value := by
  rw [offer?, Option.map_eq_some_iff, holds_iff]
  constructor
  · rintro ⟨t, ht, rfl⟩
    exact ⟨rfl, ht⟩
  · rintro ⟨rfl, ht⟩
    exact ⟨token.value, ht, rfl⟩

theorem offer?_eq_none : s.offer? env explicit = none ↔ s.IsSilent env explicit := by
  rw [offer?, Option.map_eq_none_iff, isSilent_iff]

end TokenSource

namespace AuthToken

open TokenSource

variable {env env' : Environment} {explicit : Option String} {url : String} {token : AuthToken}

/-! ### What the places amount to -/

/-- The first token that stands ready. -/
def first? (env : Environment) (explicit : Option String) : Option AuthToken := ready.findSome? (offer? env explicit)

theorem first?_eq_some : first? env explicit = some token ↔
    ∃ earlier later, ready = earlier ++ token.source :: later ∧ (∀ s ∈ earlier, s.IsSilent env explicit) ∧
      token.source.Holds env explicit token.value := by
  rw [first?, List.findSome?_eq_some_iff]
  simp only [offer?_eq_some, offer?_eq_none]
  constructor
  · rintro ⟨earlier, s, later, hready, ⟨rfl, hholds⟩, hsilent⟩
    exact ⟨earlier, later, hready, hsilent, hholds⟩
  · rintro ⟨earlier, later, hready, hsilent, hholds⟩
    exact ⟨earlier, token.source, later, hready, ⟨rfl, hholds⟩, hsilent⟩

theorem first?_eq_none : first? env explicit = none ↔ ∀ s ∈ ready, s.IsSilent env explicit := by
  rw [first?, List.findSome?_eq_none_iff]
  simp only [offer?_eq_none]

/-- A search finds the first token that stands ready; if there is none, it looks at the settings for an exchange. -/
theorem search_eq (env : Environment) (explicit : Option String) : search env explicit =
    match first? env explicit, env.get? serverTokenSetting, env.get? userEmailSetting with
    | some token, _, _ => .found token
    | none, none, _ => .failed .missingAuthToken
    | none, some _, none => .failed .missingUserEmail
    | none, some server, some email => .exchange server email := by
  have hready : ready = .explicit :: settings.map .environment := rfl
  have hsettings : (settings.map TokenSource.environment).findSome? (offer? env explicit) =
      (env.firstOf? settings).map fun p => ⟨p.2, .environment p.1⟩ := by
    rw [List.findSome?_map, Environment.firstOf?, List.map_findSome?]
    refine congrArg (List.findSome? · settings) (funext fun name => ?_)
    simp only [Function.comp_apply, offer?, raw?, Environment.get?, Option.map_map]
    rfl
  rw [first?, hready, List.findSome?_cons, hsettings, search, offer?, raw?]
  cases explicit.bind nonBlank? with
  | some t => rfl
  | none =>
    cases env.firstOf? settings with
    | some p => rfl
    | none => cases env.get? serverTokenSetting <;> cases env.get? userEmailSetting <;> rfl

/-! ### Bodies of answers -/

/-- The names that the member with the token may have. -/
def tokenNames : List String := ["access_token", "token"]

/-- A record with a token: an object in which one member has one of the names and is that text, and no other member
has, or an array of that text alone. -/
inductive TokenRecord (t : String) : JsonSyntax → Prop
  | object {before after : List (Option String × JsonSyntax)} {name : String} (token : name ∈ tokenNames)
      (others : ∀ m ∈ before ++ after, ∃ key, m.1 = some key ∧ key ∉ tokenNames) :
      TokenRecord t (.object (before ++ (some name, .string (some t)) :: after))
  | array : TokenRecord t (.array [.string (some t)])

section
variable {ms : List (Option String × JsonSyntax)} {x : JsonSyntax} {l : List (Option JsonSyntax)}

theorem placeMembers_of_placed : JsonSyntax.placeMembers [⟨tokenNames, false⟩] [some x] ms = some l ↔
    l = [some x] ∧ ∀ m ∈ ms, ∃ key, m.1 = some key ∧ key ∉ tokenNames := by
  induction ms with
  | nil => simp [JsonSyntax.placeMembers, eq_comm]
  | cons m ms ih =>
    obtain ⟨key?, y⟩ := m
    cases key? with
    | none => simp [JsonSyntax.placeMembers]
    | some key =>
      by_cases hkey : key ∈ tokenNames
      · simp [JsonSyntax.placeMembers, JsonSyntax.placeMember, hkey]
      · simp [JsonSyntax.placeMembers, JsonSyntax.placeMember, hkey, ih]

/-- The members of an object put a value in the place of the token if just one of them has a name for it. -/
theorem placeMembers_eq_some : JsonSyntax.placeMembers [⟨tokenNames, false⟩] [none] ms = some [some x] ↔
    ∃ before name after, ms = before ++ (some name, x) :: after ∧ name ∈ tokenNames ∧
      ∀ m ∈ before ++ after, ∃ key, m.1 = some key ∧ key ∉ tokenNames := by
  induction ms with
  | nil => simp [JsonSyntax.placeMembers]
  | cons m ms ih =>
    obtain ⟨key?, y⟩ := m
    cases key? with
    | none =>
      refine iff_of_false (by simp [JsonSyntax.placeMembers]) ?_
      rintro ⟨before, name, after, hms, -, hothers⟩
      rcases List.cons_eq_append_iff.1 hms with ⟨-, hhead⟩ | ⟨before, rfl, -⟩
      · cases hhead
      · obtain ⟨key, hkey, -⟩ := hothers (none, y) List.mem_cons_self
        cases hkey
    | some key =>
      by_cases hkey : key ∈ tokenNames
      · -- this member takes the place, and none may follow it
        have hplace : JsonSyntax.placeMembers [⟨tokenNames, false⟩] [none] ((some key, y) :: ms) =
            JsonSyntax.placeMembers [⟨tokenNames, false⟩] [some y] ms := by
          simp [JsonSyntax.placeMembers, JsonSyntax.placeMember, hkey]
        rw [hplace, placeMembers_of_placed]
        constructor
        · rintro ⟨⟨⟩, hothers⟩
          exact ⟨[], key, ms, rfl, hkey, hothers⟩
        · rintro ⟨before, name, after, hms, -, hothers⟩
          rcases List.cons_eq_append_iff.1 hms with ⟨rfl, hhead⟩ | ⟨before, rfl, -⟩
          · cases hhead
            exact ⟨rfl, hothers⟩
          · obtain ⟨key', hsame, hno⟩ := hothers (some key, y) List.mem_cons_self
            cases hsame
            exact absurd hkey hno
      · have hplace : JsonSyntax.placeMembers [⟨tokenNames, false⟩] [none] ((some key, y) :: ms) =
            JsonSyntax.placeMembers [⟨tokenNames, false⟩] [none] ms := by
          simp [JsonSyntax.placeMembers, JsonSyntax.placeMember, hkey]
        rw [hplace, ih]
        constructor
        · rintro ⟨before, name, after, rfl, hname, hothers⟩
          exact ⟨(some key, y) :: before, name, after, rfl, hname, List.forall_mem_cons.2 ⟨⟨key, rfl, hkey⟩, hothers⟩⟩
        · rintro ⟨before, name, after, hms, hname, hothers⟩
          rcases List.cons_eq_append_iff.1 hms with ⟨rfl, hhead⟩ | ⟨before, rfl, rfl⟩
          · cases hhead
            exact absurd hname hkey
          · exact ⟨before, name, after, rfl, hname, (List.forall_mem_cons.1 hothers).2⟩

theorem text?_eq_some {t : String} : JsonSyntax.text? x = some t ↔ x = .string (some t) := by
  cases x <;> simp [JsonSyntax.text?]

theorem record?_eq_some {t : String} :
    x.record? [⟨tokenNames, false⟩] = some [some (.string (some t))] ↔ TokenRecord t x := by
  cases x with
  | object ms =>
    rw [JsonSyntax.record?, List.map_singleton, placeMembers_eq_some]
    constructor
    · rintro ⟨before, name, after, rfl, hname, hothers⟩
      exact .object hname hothers
    · rintro ⟨hname, hothers⟩
      exact ⟨_, _, _, rfl, hname, hothers⟩
  | array xs =>
    constructor
    · intro h
      rcases xs with - | ⟨y, - | ⟨z, xs⟩⟩ <;> cases h
      exact .array
    · rintro ⟨⟩
      rfl
  | null | bool | number | string => exact iff_of_false nofun nofun

/-- The body of an answer has a token if it is a record with it. -/
theorem ofExchangeBody?_eq_some {body : List Char} {t : String} : ofExchangeBody? body = some t ↔
    ∃ x, JsonSyntax.parse? body = some x ∧ TokenRecord t x := by
  unfold ofExchangeBody?
  rw [Option.bind_eq_bind, Option.bind_eq_some_iff]
  refine exists_congr fun x => and_congr_right fun _ => ?_
  rw [← record?_eq_some, Option.bind_eq_bind, Option.bind_eq_some_iff]
  constructor
  · rintro ⟨l, hl, h⟩
    split at h
    · rename_i token
      cases token with
      | none => cases h
      | some y =>
        rw [text?_eq_some.1 h] at hl
        exact hl
    · cases h
  · intro h
    exact ⟨_, h, rfl⟩

end

/-! ### The exchange -/

/-- An answer grants a token: it is a success, its body is a record with that token, and the token is not blank. -/
structure Grants (r : HttpResponse) (t : String) : Prop where
  success : r.isSuccess = true
  body : ∃ text x, r.text? = some text ∧ JsonSyntax.parse? text = some x ∧ TokenRecord t x
  visible : isBlank t = false

theorem Grants.body_eq {r : HttpResponse} {t : String} (h : Grants r t) : r.text?.bind ofExchangeBody? = some t := by
  obtain ⟨text, x, htext, hx, ht⟩ := h.body
  exact Option.bind_eq_some_iff.2 ⟨text, htext, ofExchangeBody?_eq_some.2 ⟨x, hx, ht⟩⟩

theorem grants_of_body {r : HttpResponse} {t : String} (hsuccess : r.isSuccess = true)
    (hbody : r.text?.bind ofExchangeBody? = some t) (hvisible : isBlank t = false) : Grants r t := by
  obtain ⟨text, htext, ht⟩ := Option.bind_eq_some_iff.1 hbody
  obtain ⟨x, hx, hrecord⟩ := ofExchangeBody?_eq_some.1 ht
  exact ⟨hsuccess, ⟨text, x, htext, hx, hrecord⟩, hvisible⟩

/-- What comes of an exchange, by its answer. -/
def ofAnswer : Option HttpResponse → Except Error AuthToken
  | none => .error (.tokenExchangeFailed s!"HTTP request failed: {foreignDetail}")
  | some r => (readExchange r).map (⟨·, .exchange⟩)

theorem readExchange_cases (r : HttpResponse) : (∃ t, Grants r t ∧ readExchange r = .ok t) ∨
    (∀ t, ¬ Grants r t) ∧ ∃ why, readExchange r = .error (.tokenExchangeFailed why) := by
  unfold readExchange
  cases hsuccess : r.isSuccess with
  | false =>
    refine .inr ⟨fun t h => ?_, _, rfl⟩
    rw [h.success] at hsuccess
    cases hsuccess
  | true =>
    rw [Bool.not_true, if_neg Bool.false_ne_true]
    cases hbody : r.text?.bind ofExchangeBody? with
    | none =>
      refine .inr ⟨fun t h => ?_, _, rfl⟩
      cases h.body_eq.symm.trans hbody
    | some t =>
      dsimp only
      split
      · rename_i hblank
        refine .inr ⟨fun u h => ?_, _, rfl⟩
        obtain rfl : u = t := Option.some.inj (h.body_eq.symm.trans hbody)
        rw [h.visible] at hblank
        cases hblank
      · rename_i hblank
        exact .inl ⟨t, grants_of_body hsuccess hbody (Bool.eq_false_iff.2 hblank), rfl⟩

theorem ofAnswer_eq_ok {answer : Option HttpResponse} : ofAnswer answer = .ok token ↔
    token.source = .exchange ∧ ∃ r, answer = some r ∧ Grants r token.value := by
  cases answer with
  | none => simp [ofAnswer]
  | some r =>
    rcases readExchange_cases r with ⟨t, hgrants, hr⟩ | ⟨hno, why, hr⟩
    · rw [ofAnswer, hr]
      constructor
      · intro h
        cases h
        exact ⟨rfl, r, rfl, hgrants⟩
      · rintro ⟨hsource, r', hanswer, hgrants'⟩
        cases hanswer
        have hsame : t = token.value := Option.some.inj (hgrants.body_eq.symm.trans hgrants'.body_eq)
        obtain ⟨value, source⟩ := token
        cases hsame
        cases hsource
        rfl
    · rw [ofAnswer, hr]
      refine iff_of_false nofun ?_
      rintro ⟨-, r', hanswer, hgrants⟩
      cases hanswer
      exact hno _ hgrants

theorem ofAnswer_eq_error {answer : Option HttpResponse} {e : Error} (h : ofAnswer answer = .error e) :
    ∃ why, e = .tokenExchangeFailed why := by
  cases answer with
  | none =>
    cases h
    exact ⟨_, rfl⟩
  | some r =>
    rcases readExchange_cases r with ⟨t, -, hr⟩ | ⟨-, why, hr⟩ <;> rw [ofAnswer, hr] at h <;> cases h
    exact ⟨why, rfl⟩

/-- Only the exchange sends something: one request, if its URL can be spoken to, and after the answer it ends. -/
theorem obtain_eq (url : String) (env : Environment) (explicit : Option String) : obtain Talk.send url env explicit =
    match search env explicit with
    | .found token => .done (.ok token)
    | .failed e => .done (.error e)
    | .exchange server email =>
      match Http.request? "POST" url [("content-type", "application/json")] (some (exchangeBody server email)) with
      | some q => .ask q fun answer => .done (ofAnswer answer)
      | none => .done (ofAnswer none) := by
  unfold obtain exchange Http.send
  cases search env explicit with
  | found t => rfl
  | failed e => rfl
  | exchange server email =>
    dsimp only
    cases Http.request? "POST" url [("content-type", "application/json")] (some (exchangeBody server email)) with
    | none => rfl
    | some q =>
      refine congrArg (Talk.ask q) (funext fun answer => ?_)
      cases answer with
      | none => rfl
      | some r =>
        show (Talk.done (readExchange r)).bind _ = Talk.done ((readExchange r).map _)
        cases readExchange r <;> rfl

/-! ### The order of the places -/

theorem first?_congr
    (h : ∀ name, name ≠ "ZE_SERVER_TOKEN" → name ≠ "ZE_USER_EMAIL" → env'.lookup name = env.lookup name) :
    first? env' explicit = first? env explicit := by
  have hsecret := h "ZE_SECRET_TOKEN" (by decide) (by decide)
  have hauth := h "ZE_AUTH_TOKEN" (by decide) (by decide)
  have htoken := h "ZE_TOKEN" (by decide) (by decide)
  simp only [first?, ready, List.findSome?_cons, List.findSome?_nil, offer?, raw?, hsecret, hauth, htoken]

theorem obtain_of_first (h : first? env explicit = some token) (url : String) :
    obtain Talk.send url env explicit = .done (.ok token) := by
  rw [obtain_eq, search_eq, h]

/-- Whether a text is the URL of a server that can be spoken to. -/
def Spoken (url : String) (u : Url) : Prop := Url.parse url = .ok u ∧ u.scheme ∈ Http.schemes

/-- The request that exchanges a server token: the body has the token and the address of the user as its members. -/
def exchangeRequest (u : Url) (server email : String) : HttpRequest :=
  ⟨"POST", u, [("user-agent", "zephyr-core/0.1.0"), ("content-type", "application/json")],
    some (Json.object [("server_token", .string server), ("user_email", .string email)]).render⟩

theorem request?_eq_some {server email : String} {q : HttpRequest} :
    Http.request? "POST" url [("content-type", "application/json")] (some (exchangeBody server email)) = some q ↔
      ∃ u, Spoken url u ∧ q = exchangeRequest u server email := by
  constructor
  · intro h
    unfold Http.request? at h
    split at h
    · rename_i u hu
      split at h
      · rename_i hcond
        rw [Bool.and_eq_true, List.contains_iff_mem] at hcond
        cases h
        exact ⟨u, ⟨hu, hcond.1⟩, rfl⟩
      · cases h
    · cases h
  · rintro ⟨u, ⟨hu, hscheme⟩, rfl⟩
    exact Http.request?_of_parse hu hscheme (by decide)

/-- What a search comes to, by what the places hold. -/
theorem obtain_cases (url : String) (env : Environment) (explicit : Option String) :
    let run := obtain Talk.send url env explicit
    (∃ token, first? env explicit = some token ∧ run = .done (.ok token)) ∨
    (first? env explicit = none ∧ env.get? serverTokenSetting = none ∧ run = .done (.error .missingAuthToken)) ∨
    (∃ server, first? env explicit = none ∧ env.get? serverTokenSetting = some server ∧
      env.get? userEmailSetting = none ∧ run = .done (.error .missingUserEmail)) ∨
    (∃ server email, first? env explicit = none ∧ env.get? serverTokenSetting = some server ∧
      env.get? userEmailSetting = some email ∧
      ((∃ u, Spoken url u ∧ run = .ask (exchangeRequest u server email) fun answer => .done (ofAnswer answer)) ∨
      (∀ u, ¬ Spoken url u) ∧ ∃ why, run = .done (.error (.tokenExchangeFailed why)))) := by
  intro run
  have hrun : run = _ := (obtain_eq url env explicit).trans (by rw [search_eq])
  cases hfirst : first? env explicit with
  | some token => exact .inl ⟨token, rfl, obtain_of_first hfirst url⟩
  | none =>
    rw [hfirst] at hrun
    cases hserver : env.get? serverTokenSetting with
    | none =>
      rw [hserver] at hrun
      exact .inr (.inl ⟨rfl, rfl, hrun⟩)
    | some server =>
      cases hemail : env.get? userEmailSetting with
      | none =>
        rw [hserver, hemail] at hrun
        exact .inr (.inr (.inl ⟨server, rfl, rfl, rfl, hrun⟩))
      | some email =>
        rw [hserver, hemail] at hrun
        refine .inr (.inr (.inr ⟨server, email, rfl, rfl, rfl, ?_⟩))
        dsimp only at hrun
        cases hq : Http.request? "POST" url [("content-type", "application/json")]
          (some (exchangeBody server email)) with
        | none =>
          rw [hq] at hrun
          refine .inr ⟨fun u hu => ?_, _, hrun⟩
          cases hq.symm.trans (request?_eq_some.2 ⟨u, hu, rfl⟩)
        | some q =>
          rw [hq] at hrun
          obtain ⟨u, hu, rfl⟩ := request?_eq_some.1 hq
          exact .inl ⟨u, hu, hrun⟩

theorem obtain_eq_ask {q : HttpRequest} {next : Option HttpResponse → Talk (Except Error AuthToken)} :
    obtain Talk.send url env explicit = .ask q next ↔ first? env explicit = none ∧ ∃ server email u,
      env.get? serverTokenSetting = some server ∧ env.get? userEmailSetting = some email ∧ Spoken url u ∧
      q = exchangeRequest u server email ∧ next = fun answer => .done (ofAnswer answer) := by
  constructor
  · intro h
    rcases obtain_cases url env explicit with ⟨token, -, hrun⟩ | ⟨-, -, hrun⟩ | ⟨server, -, -, -, hrun⟩ |
      ⟨server, email, hfirst, hs, he, ⟨u, hu, hrun⟩ | ⟨-, why, hrun⟩⟩ <;> cases h.symm.trans hrun
    exact ⟨hfirst, server, email, u, hs, he, hu, rfl, rfl⟩
  · rintro ⟨hfirst, server, email, u, hs, he, hu, rfl, rfl⟩
    rw [obtain_eq, search_eq, hfirst, hs, he]
    dsimp only
    rw [request?_eq_some.2 ⟨u, hu, rfl⟩]

theorem obtain_eq_ok : obtain Talk.send url env explicit = .done (.ok token) ↔ first? env explicit = some token := by
  refine ⟨fun h => ?_, fun h => obtain_of_first h url⟩
  rcases obtain_cases url env explicit with ⟨token', hfirst, hrun⟩ | ⟨-, -, hrun⟩ | ⟨server, -, -, -, hrun⟩ |
    ⟨server, email, -, -, -, ⟨u, -, hrun⟩ | ⟨-, why, hrun⟩⟩ <;> cases h.symm.trans hrun
  exact hfirst

theorem obtain_eq_missingAuthToken : obtain Talk.send url env explicit = .done (.error .missingAuthToken) ↔
    first? env explicit = none ∧ env.get? serverTokenSetting = none := by
  rcases obtain_cases url env explicit with ⟨token, hfirst, hrun⟩ | ⟨hfirst, hs, hrun⟩ |
    ⟨server, hfirst, hs, he, hrun⟩ | ⟨server, email, hfirst, hs, he, ⟨u, hu, hrun⟩ | ⟨hno, why, hrun⟩⟩ <;> simp [*]

theorem obtain_eq_missingUserEmail : obtain Talk.send url env explicit = .done (.error .missingUserEmail) ↔
    first? env explicit = none ∧ (∃ server, env.get? serverTokenSetting = some server) ∧
      env.get? userEmailSetting = none := by
  rcases obtain_cases url env explicit with ⟨token, hfirst, hrun⟩ | ⟨hfirst, hs, hrun⟩ |
    ⟨server, hfirst, hs, he, hrun⟩ | ⟨server, email, hfirst, hs, he, ⟨u, hu, hrun⟩ | ⟨hno, why, hrun⟩⟩ <;> simp [*]

theorem obtain_eq_failedExchange :
    (∃ why, obtain Talk.send url env explicit = .done (.error (.tokenExchangeFailed why))) ↔
      first? env explicit = none ∧ (∃ server, env.get? serverTokenSetting = some server) ∧
        (∃ email, env.get? userEmailSetting = some email) ∧ ∀ u, ¬ Spoken url u := by
  constructor
  · rintro ⟨why, h⟩
    rcases obtain_cases url env explicit with ⟨token, -, hrun⟩ | ⟨-, -, hrun⟩ | ⟨server, -, -, -, hrun⟩ |
      ⟨server, email, hfirst, hs, he, ⟨u, -, hrun⟩ | ⟨hno, _, hrun⟩⟩ <;> cases h.symm.trans hrun
    exact ⟨hfirst, ⟨server, hs⟩, ⟨email, he⟩, hno⟩
  · rintro ⟨hfirst, ⟨server, hs⟩, ⟨email, he⟩, hno⟩
    rcases obtain_cases url env explicit with ⟨token, h, -⟩ | ⟨-, h, -⟩ | ⟨server, -, -, h, -⟩ |
      ⟨server, email, -, -, -, ⟨u, hu, -⟩ | ⟨-, why, hrun⟩⟩
    · cases hfirst.symm.trans h
    · cases hs.symm.trans h
    · cases he.symm.trans h
    · exact absurd hu (hno u)
    · exact ⟨why, hrun⟩

/-- A token is found in the first of four places that is not silent, with that place as its source, and nothing is sent.
If all are silent, it takes a server token and an email address, or the search fails for the one that is missing, again
without a request. With both there is exactly one request, which carries them, and the search ends with its answer: with
the token that the answer grants, or as a failed exchange. To a URL that is none of a server, nothing is sent, and the
exchange fails. So what the two settings of the exchange hold makes no difference as long as some place is not silent.
All this is meant of the search over any transport. -/
theorem obtain_iff_first (url : String) (env : Environment) (explicit : Option String) :
    let run := obtain Talk.send url env explicit
    let silent := ∀ s ∈ ready, s.IsSilent env explicit
    (∀ token, run = .done (.ok token) ↔ ∃ earlier later, ready = earlier ++ token.source :: later ∧
      (∀ s ∈ earlier, s.IsSilent env explicit) ∧ token.source.Holds env explicit token.value) ∧
    (run = .done (.error .missingAuthToken) ↔ silent ∧ serverToken.IsSilent env explicit) ∧
    (run = .done (.error .missingUserEmail) ↔
      silent ∧ (∃ server, serverToken.Holds env explicit server) ∧ userEmail.IsSilent env explicit) ∧
    (∀ q next, run = .ask q next ↔ silent ∧ ∃ server email u, serverToken.Holds env explicit server ∧
      userEmail.Holds env explicit email ∧ Spoken url u ∧ q = exchangeRequest u server email ∧
      next = fun answer => .done (ofAnswer answer)) ∧
    ((∃ why, run = .done (.error (.tokenExchangeFailed why))) ↔ silent ∧
      (∃ server, serverToken.Holds env explicit server) ∧ (∃ email, userEmail.Holds env explicit email) ∧
      ∀ u, ¬ Spoken url u) ∧
    (∀ answer, (∀ token, ofAnswer answer = .ok token ↔
        token.source = .exchange ∧ ∃ r, answer = some r ∧ Grants r token.value) ∧
      ∀ e, ofAnswer answer = .error e → ∃ why, e = .tokenExchangeFailed why) ∧
    (∀ env', (∀ name, name ≠ "ZE_SERVER_TOKEN" → name ≠ "ZE_USER_EMAIL" → env'.lookup name = env.lookup name) →
      (∃ s ∈ ready, ¬ s.IsSilent env explicit) →
      ∃ token, run = .done (.ok token) ∧ obtain Talk.send url env' explicit = .done (.ok token)) ∧
    ∀ (m : Type → Type) [Monad m] [LawfulMonad m] (transport : Transport m),
      obtain transport url env explicit = run.via transport := by
  intro run silent
  have hsilent : silent ↔ first? env explicit = none := first?_eq_none.symm
  have hserver (t : String) : serverToken.Holds env explicit t ↔ env.get? serverTokenSetting = some t := holds_iff
  have hemail (t : String) : userEmail.Holds env explicit t ↔ env.get? userEmailSetting = some t := holds_iff
  have hserver' : serverToken.IsSilent env explicit ↔ env.get? serverTokenSetting = none := isSilent_iff
  have hemail' : userEmail.IsSilent env explicit ↔ env.get? userEmailSetting = none := isSilent_iff
  simp only [hsilent, hserver, hemail, hserver', hemail', ← first?_eq_some]
  refine ⟨fun token => obtain_eq_ok, obtain_eq_missingAuthToken, obtain_eq_missingUserEmail,
    fun q next => obtain_eq_ask, obtain_eq_failedExchange,
    fun answer => ⟨fun token => ofAnswer_eq_ok, fun e => ofAnswer_eq_error⟩, ?_,
    fun m _ _ transport => (obtain_via transport url env explicit).symm⟩
  rintro env' hagree ⟨s, hs, hspeaks⟩
  have hfirst : first? env explicit ≠ none := fun h => hspeaks (first?_eq_none.1 h s hs)
  obtain ⟨token, htoken⟩ := Option.ne_none_iff_exists'.1 hfirst
  exact ⟨token, obtain_of_first htoken url, obtain_of_first ((first?_congr hagree).trans htoken) url⟩

/-- Of a token in the third setting, the same comes with a server token at hand and without one. With nothing else at
hand, the server token is exchanged. -/
theorem obtain_iff_first_behind_blanks :
    let early := [("ZE_SECRET_TOKEN", "  "), ("ZE_TOKEN", " t0k\n")]
    let late := [("ZE_SERVER_TOKEN", "server"), ("ZE_USER_EMAIL", "a@b.c")]
    let run env := obtain Talk.send "https://ze.io" ⟨env⟩ (some "\t")
    let answer : HttpResponse := ⟨200, "\x7b\"expires\":60,\"token\":\"n3w\"\x7d".toUTF8.toList⟩
    run early = .done (.ok ⟨"t0k", .environment "ZE_TOKEN"⟩) ∧ run (early ++ late) = run early ∧
    ∃ q next, run late = .ask q next ∧ q.method = "POST" ∧ q.url.text = "https://ze.io/" ∧
      q.body = some "\x7b\"server_token\":\"server\",\"user_email\":\"a@b.c\"\x7d" ∧
      next (some answer) = .done (.ok ⟨"n3w", .exchange⟩) := by
  intro early late run answer
  obtain ⟨hok, -, -, -, -, -, hsame, -⟩ := obtain_iff_first "https://ze.io" ⟨early⟩ (some "\t")
  have hsilent : ∀ s ∈ [TokenSource.explicit, .environment "ZE_SECRET_TOKEN", .environment "ZE_AUTH_TOKEN"],
      s.IsSilent ⟨early⟩ (some "\t") := by
    simp only [isSilent_iff]
    decide
  have hholds : (TokenSource.environment "ZE_TOKEN").Holds ⟨early⟩ (some "\t") "t0k" := holds_iff.2 (by decide)
  have hrun : run early = .done (.ok ⟨"t0k", .environment "ZE_TOKEN"⟩) := (hok _).2 ⟨_, [], rfl, hsilent, hholds⟩
  have hlookup (name : String) (hserver : name ≠ "ZE_SERVER_TOKEN") (hemail : name ≠ "ZE_USER_EMAIL") :
      (Environment.mk (early ++ late)).lookup name = (Environment.mk early).lookup name := by
    simp [Environment.lookup, early, late, hserver.symm, hemail.symm]
  obtain ⟨token, h, h'⟩ := hsame ⟨early ++ late⟩ hlookup ⟨.environment "ZE_TOKEN", by decide, fun h => by
    cases (isSilent_iff.1 h).symm.trans (holds_iff.1 hholds)⟩
  refine ⟨hrun, h'.trans h.symm, ?_⟩
  obtain ⟨-, -, -, hask, -, hanswer, -⟩ := obtain_iff_first "https://ze.io" ⟨late⟩ (some "\t")
  have hnone : ∀ s ∈ ready, s.IsSilent ⟨late⟩ (some "\t") := by
    simp only [isSilent_iff]
    decide
  obtain ⟨u, hu, htext, hscheme⟩ : ∃ u, Url.parse "https://ze.io" = .ok u ∧ u.text = "https://ze.io/" ∧
      u.scheme ∈ Http.schemes := by
    have h : (Url.parse "https://ze.io").toOption.map (fun u => (u.text, u.scheme)) =
        some ("https://ze.io/", "https".toList) := by decide +kernel
    obtain ⟨u, hu, hshown⟩ := Option.map_eq_some_iff.1 h
    obtain ⟨htext, hscheme⟩ := Prod.mk.inj hshown
    exact ⟨u, eq_ok_of_toOption hu, htext, hscheme ▸ by decide⟩
  refine ⟨_, _, (hask _ _).2 ⟨hnone, "server", "a@b.c", u, holds_iff.2 (by decide), holds_iff.2 (by decide),
    ⟨hu, hscheme⟩, rfl, rfl⟩, rfl, htext, ?_, ?_⟩
  · show some (Json.object [("server_token", .string "server"), ("user_email", .string "a@b.c")]).render = _
    decide +kernel
  have hgrants : Grants answer "n3w" := grants_of_body (by decide) (by decide +kernel) (by decide)
  rw [((hanswer (some answer)).1 ⟨"n3w", .exchange⟩).2 ⟨rfl, answer, rfl, hgrants⟩]

end AuthToken

end Federation
