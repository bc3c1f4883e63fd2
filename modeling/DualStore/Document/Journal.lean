import DualStore.Document.Store

/-!
# Stores with a journal

A store that writes down every call before it answers, and in which calls of chosen names fail.

* `Call.name`, `Call.entry`: what a journal says about a call;
* `JournaledStore`: a store, the names of the calls that fail, and the journal;
* `JournaledStore.perform`, `JournaledStore.openSession`: answers to calls.
-/

namespace DualStore

def Call.name : Call → String
  | .aggregate _ _ => "aggregate"
  | .insertMany _ _ => "insert_many"
  | .updateById _ _ => "update_by_id"
  | .updateMany _ _ _ => "update_many"
  | .removeMany _ _ => "remove_many"

/-- A stage in a journal: the keys of an order are written as pairs, since their order matters. -/
def stageEntry : Json → Json
  | .obj [("$sort", .obj keys)] =>
    .obj [("$sort", .arr (keys.map fun key => .arr [.str key.1, key.2]))]
  | stage => stage

def Call.entry (call : Call) : Json :=
  let parts : Fields :=
    match call with
    | .aggregate name stages =>
      [("collection", .str name), ("stages", .arr (stages.map stageEntry))]
    | .insertMany name docs =>
      [("collection", .str name), ("docs", .arr (docs.map Document.toJson))]
    | .updateById name doc => [("collection", .str name), ("doc", doc.toJson)]
    | .updateMany name filter set =>
      [("collection", .str name), ("filter", .obj filter), ("set", .obj set)]
    | .removeMany name filter => [("collection", .str name), ("filter", .obj filter)]
  .obj (("call", .str call.name) :: parts)

/-- A store with the names of the calls that fail and the calls made so far. -/
structure JournaledStore where
  store : Store := {}
  failing : List String := []
  journal : List Call := []

namespace JournaledStore

def injected (name : String) : StoreError := .pipeline (.injected name)

def openSession (s : JournaledStore) : Except StoreError Unit :=
  if s.failing.contains "session" then .error (injected "session") else .ok ()

/-- Writes down a call and answers it. -/
def perform (s : JournaledStore) (call : Call) : call.Answer × JournaledStore :=
  if s.failing.contains call.name then
    (.error (injected call.name), { s with journal := s.journal ++ [call] })
  else
    let done := s.store.perform call
    (done.1, { s with store := done.2, journal := s.journal ++ [call] })

end JournaledStore

end DualStore
