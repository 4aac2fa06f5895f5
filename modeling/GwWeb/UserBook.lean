import GwWeb.CountedService
import GwWeb.MirroredRoster
import GwWeb.TransitionRuns

/-!
What the server keeps about its users, as sequences of connfds: the sessions
with their three flags, and the users of the three services that the flags
stand for. No addresses, no files, no faults.
-/

namespace GwWeb.UserBook

open CountedService
open FirstMatch

/-- A connection and its flags. -/
structure Session where
  connfd : Int
  rssi : Int
  csi : Int
  constell : Int

inductive Kind where
  | rssi
  | csi
  | constell
  deriving DecidableEq

def Session.flag (n : Session) : Kind → Int
  | .rssi => n.rssi
  | .csi => n.csi
  | .constell => n.constell

def Session.setFlag (k : Kind) (x : Int) (n : Session) : Session :=
  match k with
  | .rssi => { n with rssi := x }
  | .csi => { n with csi := x }
  | .constell => { n with constell := x }

/-- The sessions and the services, with their counters. -/
structure Book where
  sessions : List Session
  sessionCnt : Int
  rssi : Service Int
  csi : Service Int
  constell : Service Int

/-- A service of the book. -/
def Book.service (b : Book) : Kind → Service Int
  | .rssi => b.rssi
  | .csi => b.csi
  | .constell => b.constell

def Book.empty : Book :=
  { sessions := [], sessionCnt := 0, rssi := .idle, csi := .idle, constell := .idle }

/-- What happens to the book: a session comes or goes, or asks for one of the
services. The exchanges are those that would be made with the devices. -/
inductive Action where
  | enter (connfd : Int)
  | leave (connfd : Int) (rssi csi constell : Exchange)
  | openRssi (connfd : Int) (e : Exchange)
  | startCsi (connfd : Int) (e : Exchange)
  | stopCsi (connfd : Int) (e : Exchange)
  | startConstell (connfd : Int) (e : Exchange)
  | stopConstell (connfd : Int) (e : Exchange)

def setFlag (connfd : Int) (k : Kind) (x : Int) (sessions : List Session) : List Session :=
  updateFirst (fun n => n.connfd = connfd) (Session.setFlag k x) sessions

namespace Book

/-- A session goes, with the services its flags ask to undo. -/
def leave (connfd : Int) (rssi csi constell : Exchange) (b : Book) : Book :=
  match b.sessions.find? fun n => n.connfd = connfd with
  | none => b
  | some n =>
      { sessions := b.sessions.eraseP fun n => n.connfd = connfd
        sessionCnt := b.sessionCnt - 1
        rssi := if n.rssi ≠ 0 then b.rssi.remove connfd rssi else b.rssi
        csi := if n.csi ≠ 0 then b.csi.remove connfd csi else b.csi
        constell := if n.constell ≠ 0 then b.constell.remove connfd constell else b.constell }

/-- RSSI is asked for: the user is listed again even if it is listed. -/
def openRssi (connfd : Int) (e : Exchange) (b : Book) : Book :=
  if b.rssi.Refuses e then { b with rssi := b.rssi.wake e }
  else
    { b with
      rssi := (b.rssi.wake e).append connfd
      sessions := setFlag connfd .rssi 1 b.sessions }

/-- CSI is asked for, and refused while some session has the constellation. -/
def startCsi (connfd : Int) (e : Exchange) (b : Book) : Book :=
  if ∃ n ∈ b.sessions, n.constell = 1 then b
  else if b.csi.Refuses e then { b with csi := b.csi.wake e }
  else
    { b with
      csi := (b.csi.wake e).add connfd
      sessions := setFlag connfd .csi 1 b.sessions }

/-- The user goes, and the flag is cleared. -/
def stopCsi (connfd : Int) (e : Exchange) (b : Book) : Book :=
  { b with
    csi := b.csi.remove connfd e
    sessions := setFlag connfd .csi 0 b.sessions }

/-- The constellation is asked for, and refused while some session has CSI. The
device's answer is not looked at. -/
def startConstell (connfd : Int) (e : Exchange) (b : Book) : Book :=
  if ∃ n ∈ b.sessions, n.csi = 1 then b
  else
    { b with
      constell := (b.constell.wake e).add connfd
      sessions := setFlag connfd .constell 1 b.sessions }

def stopConstell (connfd : Int) (e : Exchange) (b : Book) : Book :=
  { b with
    constell := b.constell.remove connfd e
    sessions := setFlag connfd .constell 0 b.sessions }

def act (b : Book) : Action → Book
  | .enter connfd =>
      { b with
        sessions := b.sessions ++ [{ connfd, rssi := 0, csi := 0, constell := 0 }]
        sessionCnt := b.sessionCnt + 1 }
  | .leave connfd rssi csi constell => b.leave connfd rssi csi constell
  | .openRssi connfd e => b.openRssi connfd e
  | .startCsi connfd e => b.startCsi connfd e
  | .stopCsi connfd e => b.stopCsi connfd e
  | .startConstell connfd e => b.startConstell connfd e
  | .stopConstell connfd e => b.stopConstell connfd e

end Book

end GwWeb.UserBook
