import AuditSphere.Auth.Service

/-!
# The client of the web application

`apps/web/lib/api.ts`: a call that is answered 401 waits for the session to be refreshed, and is
sent once more if it has been. All calls of a tab wait for one refresh (`refreshPromise`), which is
kept for one more turn of the event loop after it has settled. The tabs of a browser share its
cookies, and the cookie of the refresh token goes to the server with each refresh and comes
back with its answer.

What a call makes of its last response is left out, and so is the access token, which the server
may reject at any time.
-/

namespace AuditSphere.Web

open Prisma Theory Shared Auth

/-! ### Calls -/

/-- How far a call of `request` is. -/
inductive Stage where
  /-- The first `doFetch` is on its way. -/
  | sent
  /-- It awaits `tryRefresh`. -/
  | waiting
  /-- The second `doFetch` is on its way. -/
  | resent
  /-- It has its last response. -/
  | answered (status : ℕ)
  /-- The user is sent to the sign-in page. -/
  | expired
  /-- `fetch` has thrown. -/
  | failed
  deriving DecidableEq

/-- A call of `request`, with how often it has been sent. -/
structure Call where
  path : String
  noRefresh : Bool
  stage : Stage
  sends : ℕ
  deriving DecidableEq

/-- A call that starts. -/
def Call.start (path : String) (noRefresh : Bool) : Call where
  path
  noRefresh
  stage := .sent
  sends := 1

/-- `!opts.noRefresh && !path.startsWith('/auth/')`. -/
def Call.mayRefresh (c : Call) : Bool := !c.noRefresh && !"/auth/".toList.isPrefixOf c.path.toList

/-- What becomes of a call whose refresh has settled. -/
def Call.resume (ok : Bool) (c : Call) : Call :=
  if ok then { c with stage := .resent, sends := c.sends + 1 } else { c with stage := .expired }

/-- The calls that await the refresh go on. -/
def Call.wake (ok : Bool) (c : Call) : Call := if c.stage = .waiting then c.resume ok else c

/-! ### Tabs -/

/-- `refreshPromise`, if there is one. -/
inductive Refresh where
  /-- The request is on its way, with this cookie. -/
  | sent (cookie : Option String)
  /-- The server handles it, and this is left of the method; when nothing is left the answer is on its way. -/
  | handled (rest : Method Session)
  /-- It has settled, and the timer will clear it. -/
  | settled (ok : Bool)

/-- The refresh has not settled. -/
def Refresh.underWay : Refresh → Bool
  | .sent _ | .handled _ => true
  | .settled _ => false

/-- What one tab keeps. -/
structure Tab where
  refreshPromise : Option Refresh
  calls : List Call

/-- The tab awaits the answer to a refresh. -/
def Tab.refreshes (t : Tab) : Bool := t.refreshPromise.any Refresh.underWay

/-- The refresh settles. -/
def Tab.settle (ok : Bool) (t : Tab) : Tab where
  refreshPromise := some (.settled ok)
  calls := t.calls.map (Call.wake ok)

/-- A call is answered 401 for the first time: `tryRefresh` begins a refresh if there is none. -/
def Tab.unauthorized (cookie : Option String) (t : Tab) (i : ℕ) : Tab :=
  match t.refreshPromise with
  | none => {
      refreshPromise := some (.sent cookie)
      calls := t.calls.modify i fun c => { c with stage := .waiting } }
  | some (.settled ok) => { t with calls := t.calls.modify i (Call.resume ok) }
  | some _ => { t with calls := t.calls.modify i fun c => { c with stage := .waiting } }

/-- A response to a call arrives. -/
def Tab.respond (cookie : Option String) (t : Tab) (i status : ℕ) : Tab :=
  match t.calls[i]? with
  | none => t
  | some c =>
    match c.stage with
    | .sent =>
      if status = 401 ∧ c.mayRefresh then t.unauthorized cookie i
      else { t with calls := t.calls.modify i fun c => { c with stage := .answered status } }
    | .resent => { t with
        calls := t.calls.modify i fun c => { c with stage := if status = 401 then .expired else .answered status } }
    | _ => t

/-- `fetch` throws. -/
def Tab.abort (t : Tab) (i : ℕ) : Tab := { t with
  calls := t.calls.modify i fun c => if c.stage = .sent ∨ c.stage = .resent then { c with stage := .failed } else c }

/-! ### The browser and the server -/

/-- A browser with its tabs, and the server. -/
structure System where
  store : Store
  /-- The cookie of the refresh token. -/
  cookie : Option String
  tabs : ℕ → Tab

/-- What can happen. -/
inductive Event where
  /-- A tab calls the server. -/
  | call (tab : ℕ) (path : String) (noRefresh : Bool)
  /-- A call is answered. -/
  | respond (tab i status : ℕ)
  /-- A call fails. -/
  | abort (tab i : ℕ)
  /-- A refresh reaches the server. -/
  | arrive (tab : ℕ) (d : Draws) (info : RequestMeta)
  /-- The server makes the next step of a refresh. -/
  | turn (tab : ℕ)
  /-- The answer to a refresh arrives. -/
  | receive (tab : ℕ)
  /-- A refresh is lost on its way to the server, or its answer is lost. -/
  | lose (tab : ℕ)
  /-- The timer clears `refreshPromise`. -/
  | timer (tab : ℕ)
  /-- The server does something else. -/
  | elsewhere (u : Store → Store)

/-- One tab changes. -/
def System.update (s : System) (tab : ℕ) (t : Tab) : System := { s with tabs := Function.update s.tabs tab t }

/-- The answer to a refresh: it sets the cookies, and an error clears them. -/
def System.receive (s : System) (tab : ℕ) : System :=
  match (s.tabs tab).refreshPromise with
  | some (.handled (.ret session)) =>
    { s.update tab ((s.tabs tab).settle true) with cookie := some session.tokens.refresh }
  | some (.handled (.fail _)) => { s.update tab ((s.tabs tab).settle false) with cookie := none }
  | _ => s

/-- A refresh that is lost; `tryRefresh` catches the error. -/
def System.lose (s : System) (tab : ℕ) : System :=
  match (s.tabs tab).refreshPromise with
  | some (.sent _) | some (.handled (.ret _)) | some (.handled (.fail _)) => s.update tab ((s.tabs tab).settle false)
  | _ => s

/-- What happens. -/
def System.next (env : Platform) (s : System) : Event → System
  | .call tab path noRefresh =>
    s.update tab { s.tabs tab with calls := (s.tabs tab).calls ++ [.start path noRefresh] }
  | .respond tab i status => s.update tab ((s.tabs tab).respond s.cookie i status)
  | .abort tab i => s.update tab ((s.tabs tab).abort i)
  | .arrive tab d info =>
    match (s.tabs tab).refreshPromise with
    | some (.sent cookie) =>
      s.update tab { s.tabs tab with refreshPromise := some (.handled (refresh env d cookie info)) }
    | _ => s
  | .turn tab =>
    match (s.tabs tab).refreshPromise with
    | some (.handled (.act u k)) =>
      { s.update tab { s.tabs tab with refreshPromise := some (.handled (k s.store)) } with store := u s.store }
    | _ => s
  | .receive tab => s.receive tab
  | .lose tab => s.lose tab
  | .timer tab =>
    match (s.tabs tab).refreshPromise with
    | some (.settled _) => s.update tab { s.tabs tab with refreshPromise := none }
    | _ => s
  | .elsewhere u => { s with store := u s.store }

/-- The state after some events, the last one first. -/
def System.run (env : Platform) (s₀ : System) : List Event → System
  | [] => s₀
  | e :: past => (s₀.run env past).next env e

end AuditSphere.Web
