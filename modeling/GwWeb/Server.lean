import GwWeb.FirstMatch

/-!
The session list of `server.c`. A session is named by the address of its node;
`released` lists the nodes that were freed. Names are the C names, in camelCase.
-/

namespace GwWeb.Server

open FirstMatch

structure RecordAction where
  enableRssi : Int
  enableRssiSave : Int
  enableStartCsi : Int
  enableCsiSave : Int
  enableStartConstell : Int

/-- `user_session_node`, with the `connfd` of its `g_receive`. -/
structure UserSessionNode where
  addr : Nat
  nodeId : Int
  connfd : Int
  recordAction : RecordAction

/-- The part of `g_server_para` that the event loop works on. -/
structure GServerPara where
  openwrtLink : Int
  openwrtConnfd : Int
  userNodeIdInit : Int
  userSessionCnt : Int
  userSessionNodeHead : List UserSessionNode
  allocated : Nat
  released : List Nat

def createServerThread : GServerPara :=
  { openwrtLink := 0, openwrtConnfd := 0, userNodeIdInit := 1, userSessionCnt := 0,
    userSessionNodeHead := [], allocated := 0, released := [] }

/-- All flags are 0. -/
def RecordAction.initial : RecordAction :=
  { enableRssi := 0, enableRssiSave := 0, enableStartCsi := 0, enableCsiSave := 0,
    enableStartConstell := 0 }

/-- `new_user_node` and `CreateRecvParam`, then `add_new_user_node_to_list`. -/
def addNewUserNodeToList (connfd : Int) (g : GServerPara) : GServerPara :=
  let node : UserSessionNode :=
    { addr := g.allocated, nodeId := g.userNodeIdInit, connfd, recordAction := .initial }
  { g with
    allocated := g.allocated + 1
    userSessionNodeHead := g.userSessionNodeHead ++ [node]
    userSessionCnt := g.userSessionCnt + 1
    userNodeIdInit := if g.userNodeIdInit + 1 = 1025 then 1 else g.userNodeIdInit + 1 }

/-- `del_user_node_in_list`: the unlinking loop, and its cursor. -/
def delUserNodeInList (connfd : Int) (g : GServerPara) : GServerPara × Option UserSessionNode :=
  let loop := unlinkLoop (fun n => n.connfd = connfd) g.userSessionNodeHead none
  ({ g with
      userSessionNodeHead := loop.list
      userSessionCnt := if loop.found then g.userSessionCnt - 1 else g.userSessionCnt },
    loop.cursor)

def findUserNodeByConnfd (connfd : Int) (g : GServerPara) : Option UserSessionNode :=
  g.userSessionNodeHead.find? fun n => n.connfd = connfd

def findUserNodeId (connfd : Int) (g : GServerPara) : Int :=
  match findUserNodeByConnfd connfd g with
  | none => -1
  | some n => n.nodeId

def findUserNodeByUserId (userId : Int) (g : GServerPara) : Option UserSessionNode :=
  g.userSessionNodeHead.find? fun n => n.nodeId = userId

/-- The sessions in the list. -/
def connected (g : GServerPara) : List Nat := g.userSessionNodeHead.map UserSessionNode.addr

/-- What `record_...` do: change the flags of the node `find_user_node_by_connfd`
returns, if any. -/
def recordAction (connfd : Int) (f : RecordAction → RecordAction) (g : GServerPara) :
    GServerPara :=
  { g with
    userSessionNodeHead :=
      updateFirst (fun n => n.connfd = connfd)
        (fun n => { n with recordAction := f n.recordAction }) g.userSessionNodeHead }

end GwWeb.Server
