import GwWeb.BookInvariants
import GwWeb.BookRefinement

/-!
What the book actions of an event keep, the event keeps, and so does a run.
-/

namespace GwWeb.BookRuns

open CountedService
open Relation
open Subscription
open TransitionRuns
open GwWeb.MosquittoBroker
open GwWeb.DmaHandler
open GwWeb.EventProcess
open GwWeb.UserBook
open GwWeb.BookRefinement

theorem sessions_connfd (s : State) :
    (book s).sessions.map Session.connfd = sessionConnfds s.server := by
  simp [book, bookSession, sessionConnfds, Function.comp_def]

/-- The actions an event can stand for: sessions come and go in any book on the
way, requests are made in the book the event found. -/
inductive Caused (s : State) (l : Label) : Book → Action → Prop where
  | enter (b : Book) (connfd : Int) : Caused s l b (.enter connfd)
  | leave (b : Book) (connfd : Int)
      (h : l.event = .delDisconnectUser connfd ∨ l.event = .openwrtConnected) :
      Caused s l b (leaveAction connfd l.replies s)
  | openRssi (connfd : Int) (h : l.event = .inquiryRssi connfd) :
      Caused s l (book s)
        (.openRssi connfd (transferExchange s.broker.rssiOpenJson l.replies.transfer))
  | startCsi (connfd : Int) (h : l.event = .startCsi connfd) :
      Caused s l (book s) (.startCsi connfd (startExchange l.replies.start))
  | stopCsi (connfd : Int) : Caused s l (book s) (.stopCsi connfd stopExchange)
  | startConstell (connfd : Int) (h : l.event = .startConstellation connfd) :
      Caused s l (book s) (.startConstell connfd (startExchange l.replies.start))
  | stopConstell (connfd : Int) : Caused s l (book s) (.stopConstell connfd stopExchange)

/-- What each action of an event keeps, the event keeps. -/
theorem eventLoop_induction {P : Book → Prop} {s s' : State} {l : Label}
    (hp : s.dma.pAxidma = true) (h : Step s l s') (hs : P (book s))
    (hkeep : ∀ b a, Caused s l b a → P b → P (b.act a)) : P (book s') := by
  rw [(eventLoop_book hp h).1]
  rcases l with ⟨event, r⟩
  cases event with
  | acceptNewUser connfd => exact hkeep _ _ (.enter _ connfd) hs
  | delDisconnectUser connfd => exact hkeep _ _ (.leave _ connfd (.inl rfl)) hs
  | openwrtConnected =>
      have henter := hkeep _ _ (.enter _ s.server.openwrtConnfd) hs
      simp only [actions]
      split
      · exact hs
      · split
        · exact hkeep _ _ (.leave _ s.server.openwrtConnfd (.inr rfl)) henter
        · exact henter
  | inquiryRssi connfd => exact hkeep _ _ (.openRssi connfd rfl) hs
  | startCsi connfd => exact hkeep _ _ (.startCsi connfd rfl) hs
  | stopCsi connfd => exact hkeep _ _ (.stopCsi connfd) hs
  | startConstellation connfd => exact hkeep _ _ (.startConstell connfd rfl) hs
  | stopConstellation connfd => exact hkeep _ _ (.stopConstell connfd) hs
  | _ => exact hs

theorem Caused.listed {s : State} {l : Label} {b : Book} {a : Action}
    (hin : InSession s l.event) (h : Caused s l b a) : a.Listed b := by
  have hsession : ∀ connfd, l.event.session? = some connfd →
      connfd ∈ (book s).sessions.map Session.connfd := by
    intro connfd hc
    rw [sessions_connfd]
    exact hin connfd hc
  cases h with
  | openRssi connfd hl => exact hsession connfd (by rw [hl]; rfl)
  | startCsi connfd hl => exact hsession connfd (by rw [hl]; rfl)
  | startConstell connfd hl => exact hsession connfd (by rw [hl]; rfl)
  | _ => trivial

theorem eventLoop_bookSteps {s s' : State} {l : Label} (hp : s.dma.pAxidma = true)
    (h : Step s l s') : ReflTransGen BookStep (book s) (book s') := by
  apply eventLoop_induction hp h .refl
  intro b a ha hb
  exact hb.tail ⟨a, ha.listed h.1, rfl⟩

/-- What an action may stop of the DMA is told to stop, and the stop gets through. -/
def StopsDma : Action → Prop
  | .leave _ _ csi constell => csi = stopExchange ∧ constell = stopExchange
  | .stopCsi _ e => e = stopExchange
  | .stopConstell _ e => e = stopExchange
  | _ => True

theorem Caused.stopsDma {s : State} {l : Label} {b : Book} {a : Action} (h : Caused s l b a) :
    StopsDma a := by
  cases h with
  | leave b connfd hl => exact ⟨rfl, rfl⟩
  | stopCsi connfd | stopConstell connfd => rfl
  | _ => trivial

/-- The stops of CSI and the constellation get through; so they are prompt as long
as no start is refused. -/
theorem request_prompts {a : Action} {b : Book} {k : Kind} {r : Request Int} (hk : k ≠ .rssi)
    (hstops : StopsDma a) (hr : a.request b k = some r)
    (haccepted : ∀ connfd e, r = .start connfd e → ¬ (b.service k).Refuses e) :
    r.Prompts (b.ledger k) := by
  cases r with
  | enter c => trivial
  | startAnyway c e => trivial
  | start c e => exact haccepted c e rfl
  | startAgain c e =>
      cases k
      · exact absurd rfl hk
      · cases a <;> simp [Action.request] at hr
      · cases a <;> simp [Action.request] at hr
  | leave c e =>
      cases a with
      | leave connfd e₁ e₂ e₃ =>
          obtain ⟨rfl, rfl⟩ := hstops
          cases k
          · exact absurd rfl hk
          · cases hr
            exact ⟨rfl, rfl⟩
          · cases hr
            exact ⟨rfl, rfl⟩
      | _ => cases k <;> simp [Action.request] at hr
  | stop c e =>
      cases a with
      | stopCsi connfd e =>
          obtain rfl := hstops
          cases k <;> cases hr
          exact ⟨rfl, rfl⟩
      | stopConstell connfd e =>
          obtain rfl := hstops
          cases k <;> cases hr
          exact ⟨rfl, rfl⟩
      | _ => cases k <;> simp [Action.request] at hr

theorem transferExchange_agreed {buf : ControlJson} {reply : TransferReply}
    (h : (transferExchange buf reply).agreed = true) :
    (transferExchange buf reply).delivered = true := by
  simp only [transferExchange, TransferReply.code, decide_eq_true_eq] at h ⊢
  split at h
  · rename_i hok
    exact hok.1
  · cases h

theorem Caused.proper {s : State} {l : Label} {a : Action} {b : Book} {k : Kind}
    {r : Request Int} (hopen : k = .rssi → s.broker.rssiOpenJson.timer ≠ "0")
    (h : Caused s l b a) (hr : a.request b k = some r) : r.Proper := by
  cases h with
  | enter b connfd => cases k <;> cases hr <;> trivial
  | leave b connfd hl =>
      cases k <;> cases hr
      · simp only [Request.Proper, transferExchange]
        split
        · exact .inl rfl
        · exact .inr rfl
      · exact .inl rfl
      · exact .inl rfl
  | openRssi connfd hl =>
      cases k <;> cases hr
      exact ⟨by simp [transferExchange, hopen rfl], transferExchange_agreed⟩
  | startCsi connfd hl =>
      cases k <;> simp only [Action.request, reduceCtorEq] at hr
      split at hr <;> cases hr
      exact ⟨rfl, fun _ => rfl⟩
  | stopCsi connfd =>
      cases k <;> cases hr
      exact .inl rfl
  | startConstell connfd hl =>
      cases k <;> simp only [Action.request, reduceCtorEq] at hr
      split at hr <;> cases hr
      exact ⟨rfl, rfl⟩
  | stopConstell connfd =>
      cases k <;> cases hr
      exact .inl rfl

theorem Caused.start_delivered {s : State} {l : Label} {b : Book} {a : Action} {k : Kind}
    {connfd : Int} {e : Exchange} (h : Caused s l b a)
    (hr : a.request b k = some (.start connfd e)) : e.delivered = true := by
  cases h with
  | startCsi c hl =>
      cases k <;> simp only [Action.request, reduceCtorEq] at hr
      split at hr <;> cases hr
      rfl
  | startConstell c hl =>
      cases k <;> simp only [Action.request, reduceCtorEq] at hr
      split at hr <;> cases hr
  | _ => cases k <;> cases hr

theorem started_book {s : State} (h : Started s) :
    book s = Book.empty ∧ s.dma.pAxidma = true ∧
      s.dma.csiSaveUserCnt = s.dma.csiSaveUserNodeHead.length := by
  obtain ⟨openJson, closeJson, hbroker⟩ := h.broker
  have hdma := h.dma
  simp only [createDmaHandler, if_true, Option.some.injEq] at hdma
  refine ⟨?_, ?_, ?_⟩
  · simp only [book, h.server, hbroker, ← hdma]
    rfl
  · rw [← hdma]
  · rw [← hdma]
    rfl

theorem kept_started {s : State} (h : Started s) : (book s).Kept ∧ s.dma.pAxidma = true := by
  obtain ⟨hempty, hp, -⟩ := started_book h
  rw [hempty]
  exact ⟨kept_empty, hp⟩

theorem kept_step {s s' : State} {l : Label} (hkept : (book s).Kept)
    (hp : s.dma.pAxidma = true) (h : Step s l s') :
    (book s').Kept ∧ s'.dma.pAxidma = true := by
  have hconst := (eventLoop_book hp h).2
  refine ⟨?_, (congrArg (fun c => c.2.1) hconst).trans hp⟩
  apply eventLoop_induction hp h hkept
  intro b a ha hb
  exact hb.act (ha.listed h.1)

theorem run_bookSteps {s s' : State} {trs : List (Transition State Label)}
    (hp : s.dma.pAxidma = true) (h : Run Step s trs s') :
    ReflTransGen BookStep (book s) (book s') ∧ constants s' = constants s := by
  induction h with
  | nil => exact ⟨.refl, rfl⟩
  | cons hstep _ ih =>
      obtain ⟨-, hconst⟩ := eventLoop_book hp hstep
      have hp' : _ = true := (congrArg (fun c => c.2.1) hconst).trans hp
      obtain ⟨hsteps, hlast⟩ := ih hp'
      exact ⟨(eventLoop_bookSteps hp hstep).trans hsteps, hlast.trans hconst⟩

theorem reached_kept {s s' : State} {trs : List (Transition State Label)} (hs : Started s)
    (h : Run Step s trs s') : (book s').Kept ∧ constants s' = constants s := by
  obtain ⟨hempty, hp, -⟩ := started_book hs
  obtain ⟨hsteps, hconst⟩ := run_bookSteps hp h
  rw [hempty] at hsteps
  exact ⟨kept_of_bookSteps hsteps, hconst⟩

end GwWeb.BookRuns
