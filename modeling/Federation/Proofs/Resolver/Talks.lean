import Federation.Resolver

/-!
# Resolutions, one request at a time

A `Talk` is a computation that is spelled out up to its requests: it has ended, or asks for something and goes on with
the answer. The definitions of the resolver work with any transport, so with `Talk.send` as their transport they become
talks, and a talk that is carried out over a transport is the computation with that transport
(`RemoteResolver.resolve_via`).

The search for a token and the call for a dependency are talks that send one known request or none (`Talk.Sends`): the
exchange of a server token, and the question to the registry.
-/

namespace Federation

/-- A computation that has ended, or asks for something and goes on with the answer. -/
inductive Talk (α : Type) where
  | done (a : α)
  | ask (q : HttpRequest) (next : Option HttpResponse → Talk α)

namespace Talk
variable {α β : Type}

/-- One talk after another. -/
def bind : Talk α → (α → Talk β) → Talk β
  | done a, f => f a
  | ask q next, f => ask q fun r => (next r).bind f

instance : Monad Talk where
  pure := done
  bind := bind

theorem bind_done (t : Talk α) : t.bind done = t := by
  induction t with
  | done a => rfl
  | ask q next ih => exact congrArg (ask q) (funext ih)

theorem bind_bind {γ : Type} (t : Talk α) (f : α → Talk β) (g : β → Talk γ) :
    (t.bind f).bind g = t.bind fun a => (f a).bind g := by
  induction t with
  | done a => rfl
  | ask q next ih => exact congrArg (ask q) (funext ih)

instance : LawfulMonad Talk := .mk' Talk bind_done (fun _ _ => rfl) bind_bind

/-- The transport of talks. -/
def send : Transport Talk := fun q => ask q done

section
variable {m : Type → Type} [Monad m]

/-- Carries out a talk over a transport. -/
def via (transport : Transport m) : Talk α → m α
  | done a => pure a
  | ask q next => transport q >>= fun r => (next r).via transport

variable [LawfulMonad m]

theorem via_bind (transport : Transport m) (t : Talk α) (f : α → Talk β) :
    (t >>= f).via transport = t.via transport >>= fun a => (f a).via transport := by
  induction t with
  | done a => exact (pure_bind (m := m) a fun a => (f a).via transport).symm
  | ask q next ih =>
    show (transport q >>= fun r => (next r >>= f).via transport) = _
    rw [via, bind_assoc]
    exact bind_congr ih

theorem via_httpSend (transport : Transport m) (method url : String) (headers : List (String × String))
    (body : Option String) :
    (Http.send send method url headers body).via transport = Http.send transport method url headers body := by
  unfold Http.send
  cases Http.request? method url headers body with
  | none => rfl
  | some q => exact bind_pure (transport q)

theorem via_mapM (transport : Transport m) (f : α → Talk β) (l : List α) :
    (l.mapM f).via transport = l.mapM fun x => (f x).via transport := by
  induction l with
  | nil => rfl
  | cons x l ih =>
    rw [List.mapM_cons, List.mapM_cons, via_bind]
    refine bind_congr fun y => ?_
    rw [via_bind, ih]
    rfl

end

/-- With some answers, a talk sends these requests and comes to a result. -/
inductive Course : Talk α → List HttpRequest → α → Prop
  | done (a : α) : Course (done a) [] a
  | ask (q : HttpRequest) {next : Option HttpResponse → Talk α} (r : Option HttpResponse) {qs : List HttpRequest}
      {a : α} (h : Course (next r) qs a) : Course (ask q next) (q :: qs) a

theorem Course.of_bind {t : Talk α} {f : α → Talk β} {qs : List HttpRequest} {b : β} (h : Course (t >>= f) qs b) :
    ∃ a qs₁ qs₂, Course t qs₁ a ∧ Course (f a) qs₂ b ∧ qs = qs₁ ++ qs₂ := by
  induction t generalizing qs with
  | done a => exact ⟨a, [], qs, .done a, h, rfl⟩
  | ask q next ih =>
    cases h with
    | ask _ r h =>
      obtain ⟨a, qs₁, qs₂, h₁, h₂, rfl⟩ := ih r h
      exact ⟨a, q :: qs₁, qs₂, .ask q r h₁, h₂, rfl⟩

/-- A talk sends one request and then ends, or ends at once. -/
inductive Sends : Option HttpRequest → Talk α → Prop
  | nothing (a : α) : Sends none (done a)
  | once (q : HttpRequest) {next : Option HttpResponse → Talk α} (ends : ∀ r, ∃ a, next r = done a) :
      Sends (some q) (ask q next)

variable {q? : Option HttpRequest}

theorem Sends.bind {t : Talk α} (h : Sends q? t) {f : α → Talk β} (hf : ∀ a, ∃ b, f a = done b) :
    Sends q? (t >>= f) := by
  cases h with
  | nothing a =>
    obtain ⟨b, hb⟩ := hf a
    show Sends none (f a)
    rw [hb]
    exact .nothing b
  | once q ends =>
    refine .once q fun r => ?_
    obtain ⟨a, ha⟩ := ends r
    rw [ha]
    exact hf a

theorem sends_httpSend (method url : String) (headers : List (String × String)) (body : Option String) :
    Sends (Http.request? method url headers body) (Http.send send method url headers body) := by
  unfold Http.send
  cases Http.request? method url headers body with
  | none => exact .nothing none
  | some q => exact .once q fun r => ⟨r, rfl⟩

end Talk

section
variable {m : Type → Type} [Monad m] [LawfulMonad m] (transport : Transport m)

theorem AuthToken.obtain_via (url : String) (env : Environment) (explicit : Option String) :
    (obtain Talk.send url env explicit).via transport = obtain transport url env explicit := by
  unfold AuthToken.obtain
  cases search env explicit with
  | found t => rfl
  | failed e => rfl
  | exchange server email =>
    dsimp only
    rw [Talk.via_bind, exchange, Talk.via_bind, Talk.via_httpSend, exchange]
    refine congr (congrArg _ (bind_congr fun answer => ?_)) (funext fun o => ?_)
    · cases answer <;> rfl
    · cases o <;> rfl

theorem Registry.resolve_via (base token uid version : String) :
    (resolve Talk.send base token uid version).via transport = resolve transport base token uid version := by
  unfold resolve
  rw [Talk.via_bind, Talk.via_httpSend]
  exact bind_congr fun answer => by cases answer <;> rfl

theorem ResolutionPlan.carryOut_via (base key : String) (p : ResolutionPlan) :
    (p.carryOut Talk.send base key).via transport = p.carryOut transport base key := by
  cases p with
  | skip | settled o => rfl
  | ask uid version token =>
    rw [carryOut, Talk.via_bind, Registry.resolve_via, carryOut]
    exact bind_congr fun answer => by cases answer <;> rfl

namespace RemoteResolver
variable (found : Option AppContext) (explicit : Option String) (ds : List Descriptor) (r : RemoteResolver)

theorem token_via : (r.token Talk.send explicit ds).via transport = r.token transport explicit ds := by
  unfold token
  split
  · exact AuthToken.obtain_via ..
  · rfl

theorem outcomes_via (strict : Bool) (plans : List (Descriptor × ResolutionPlan)) :
    (r.outcomes Talk.send strict plans).via transport = r.outcomes transport strict plans := by
  unfold outcomes
  split
  · rfl
  · rw [Talk.via_mapM]
    exact congrArg (fun f => plans.mapM f) (funext fun p => p.2.carryOut_via ..)

/-- A resolution is a talk, carried out over its transport. -/
theorem resolve_via (options : ResolveOptions) :
    (r.resolve Talk.send found options ds).via transport = r.resolve transport found options ds := by
  unfold resolve
  rw [Talk.via_bind, token_via]
  refine bind_congr fun token => ?_
  rw [Talk.via_bind, outcomes_via]
  rfl

end RemoteResolver

end

/-! ### The request of each talk -/

/-- The request that exchanges a server token, if that is what the search for a token comes to. -/
def AuthToken.exchangeRequest? (url : String) (env : Environment) (explicit : Option String) : Option HttpRequest :=
  match search env explicit with
  | .exchange server email =>
    Http.request? "POST" url [("content-type", "application/json")] (some (exchangeBody server email))
  | _ => none

theorem AuthToken.sends_obtain (url : String) (env : Environment) (explicit : Option String) :
    Talk.Sends (exchangeRequest? url env explicit) (obtain Talk.send url env explicit) := by
  unfold exchangeRequest? AuthToken.obtain
  cases search env explicit with
  | found t => exact .nothing _
  | failed e => exact .nothing _
  | exchange server email =>
    refine Talk.Sends.bind (Talk.Sends.bind (Talk.sends_httpSend ..) fun answer => ?_) fun o => ?_
    · cases answer <;> exact ⟨_, rfl⟩
    · cases o <;> exact ⟨_, rfl⟩

theorem Registry.sends_resolve (base token uid version : String) :
    Talk.Sends (Http.request? "GET" (resolveUrl base uid version) [Http.bearer token] none)
      (resolve Talk.send base token uid version) := by
  rw [resolve]
  refine (Talk.sends_httpSend ..).bind fun answer => ?_
  cases answer <;> exact ⟨_, rfl⟩

/-- The request with which a plan is carried out, if it can be sent. -/
def ResolutionPlan.request? (base : String) : ResolutionPlan → Option HttpRequest
  | ask uid version token => Http.request? "GET" (Registry.resolveUrl base uid version) [Http.bearer token] none
  | skip | settled _ => none

theorem ResolutionPlan.sends_carryOut (base key : String) (p : ResolutionPlan) :
    Talk.Sends (p.request? base) (p.carryOut Talk.send base key) := by
  cases p with
  | skip | settled o => exact .nothing _
  | ask uid version token =>
    rw [request?, carryOut]
    refine (Registry.sends_resolve base token uid version).bind fun answer => ?_
    cases answer <;> exact ⟨_, rfl⟩

namespace Descriptor
variable {context : Option AppContext} {base : String} {d : Descriptor}

/-- The question to the registry for a dependency, if it is one for the registry, can be named and can be sent. -/
def question? (context : Option AppContext) (base token : String) (d : Descriptor) : Option HttpRequest :=
  if d.needsRegistry then
    match qualifyUid d.applicationUid context with
    | .ok uid =>
      Http.request? "GET" (Registry.resolveUrl base uid (requestedVersion d.version)) [Http.bearer token] none
    | .error _ => none
  else none

theorem question?_of_local (h : d.needsRegistry = false) (token : String) : d.question? context base token = none := by
  rw [question?, h]
  rfl

theorem question?_eq_none (base token : String)
    (h : d.needsRegistry = false ∨ ∃ e, qualifyUid d.applicationUid context = .error e) :
    d.question? context base token = none := by
  rcases h with hlocal | ⟨e, he⟩
  · exact question?_of_local hlocal token
  · rw [question?, he]
    exact ite_self none

/-- Without a token nothing is asked, and with one the question of the dependency. -/
theorem request?_plan (token : Except Error AuthToken) :
    (d.plan context token).request? base = token.toOption.bind fun t => d.question? context base t.value := by
  cases hneeds : d.needsRegistry with
  | false =>
    have hplan : (d.plan context token).request? base = none := by
      unfold plan
      cases hhome : d.isHome with
      | false => rfl
      | true =>
        rw [show isLiteralUrl d.version = true by simpa [needsRegistry, hhome] using hneeds]
        rfl
    rw [hplan]
    cases token with
    | error e => rfl
    | ok t => exact (question?_of_local hneeds _).symm
  | true =>
    obtain ⟨hhome, hliteral⟩ : d.isHome = true ∧ isLiteralUrl d.version = false := by
      simpa [needsRegistry] using hneeds
    rw [plan, if_neg (by simp [hhome]), if_neg (by simp [hliteral])]
    cases token with
    | error e => cases qualifyUid d.applicationUid context <;> rfl
    | ok t =>
      show _ = d.question? context base t.value
      rw [question?, if_pos hneeds]
      cases qualifyUid d.applicationUid context <;> rfl

end Descriptor

/-- The request that exchanges a server token for some dependencies, if the registry has to be asked for one. -/
def RemoteResolver.exchangeRequest? (r : RemoteResolver) (explicit : Option String) (ds : List Descriptor) :
    Option HttpRequest :=
  if ds.any (·.needsRegistry) then
    AuthToken.exchangeRequest? r.config.tokenExchangeUrl r.environment explicit
  else none

theorem RemoteResolver.sends_token (r : RemoteResolver) (explicit : Option String) (ds : List Descriptor) :
    Talk.Sends (r.exchangeRequest? explicit ds) (r.token Talk.send explicit ds) := by
  unfold exchangeRequest? RemoteResolver.token
  split
  · exact AuthToken.sends_obtain ..
  · exact .nothing _

end Federation
