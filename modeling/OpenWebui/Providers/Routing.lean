import Mathlib.Data.List.Basic
import OpenWebui.Base.Dict

/-! The connections to model servers, the names the servers list, and the ids these are listed under
here. -/

namespace OpenWebui

namespace Providers

/-- A connection with the settings found for it, by its position or by its URL.
`prefix_id` is empty where there is none. -/
structure Connection where
  url : String
  key : String
  enable : Bool
  prefix_id : String
  model_ids : List String
  deriving DecidableEq

structure Provider where
  enabled : Bool
  connections : List Connection
  deriving DecidableEq

abbrev Backends := Connection → Option (List String)

def prefixed (prefix_id name : String) : String := prefix_id ++ "." ++ name

def strip_provider_model_prefix (model_id prefix_id : String) : String :=
  if prefix_id ≠ "" ∧ (prefix_id ++ ".").toList <+: model_id.toList then
    String.ofList (model_id.toList.drop (prefix_id ++ ".").toList.length)
  else model_id

def Connection.listed_id (connection : Connection) (name : String) : String :=
  if connection.prefix_id = "" then name else prefixed connection.prefix_id name

def ollama_names (backends : Backends) (provider : Provider) (connection : Connection) :
    List String :=
  if provider.enabled && connection.enable then
    let names := (backends connection).getD []
    if connection.model_ids.isEmpty then names
    else names.filter (fun name => decide (name ∈ connection.model_ids))
  else []

/-- The models of one OpenAI connection: the ids named for it, else those its server
answers. `skips` are the ids left out of the list of OpenAI's own server. -/
def openai_names (backends : Backends) (skips : Connection → String → Bool) (provider : Provider)
    (connection : Connection) : List String :=
  if provider.enabled && connection.enable then
    let names :=
      if connection.model_ids.isEmpty then (backends connection).getD [] else connection.model_ids
    names.filter (fun name => !skips connection (connection.listed_id name))
  else []

def merge_entries (merged : Dict String (List Nat)) (entry : List String × Nat) :
    Dict String (List Nat) :=
  entry.1.foldl (fun merged id => merged.set id ((merged.get? id).getD [] ++ [entry.2])) merged

def merge_models_lists (model_lists : List (List String)) : Dict String (List Nat) :=
  model_lists.zipIdx.foldl merge_entries Dict.empty

def merge_first (merged : Dict String Nat) (entry : List String × Nat) : Dict String Nat :=
  entry.1.foldl (fun merged id =>
    if (merged.get? id).isSome then merged else merged.set id entry.2) merged

def get_merged_models (model_lists : List (List String)) : Dict String Nat :=
  model_lists.zipIdx.foldl merge_first Dict.empty

/-- `OLLAMA_MODELS` as a listing makes it. -/
def ollama_models (backends : Backends) (provider : Provider) : Dict String (List Nat) :=
  merge_models_lists (provider.connections.map (fun connection =>
    (ollama_names backends provider connection).map connection.listed_id))

/-- `OPENAI_MODELS` as a listing makes it. -/
def openai_models (backends : Backends) (skips : Connection → String → Bool)
    (provider : Provider) : Dict String Nat :=
  get_merged_models (provider.connections.map (fun connection =>
    (openai_names backends skips provider connection).map connection.listed_id))

variable {connection : Connection} {name id : String}

theorem toList_prefixed (prefix_id name : String) :
    (prefixed prefix_id name).toList = (prefix_id ++ ".").toList ++ name.toList := by
  rw [prefixed, String.toList_append]

theorem strip_of_empty (model_id : String) : strip_provider_model_prefix model_id "" = model_id := by
  rw [ strip_provider_model_prefix, if_neg (fun has => has.1 rfl)]

theorem strip_prefixed {prefix_id : String} (named : prefix_id ≠ "") (name : String) :
    strip_provider_model_prefix (prefixed prefix_id name) prefix_id = name := by
  have starts : (prefix_id ++ ".").toList <+: (prefixed prefix_id name).toList := by
    rw [toList_prefixed]
    exact List.prefix_append _ _
  rw [ strip_provider_model_prefix, if_pos ⟨named, starts⟩, toList_prefixed, List.drop_left,
    String.ofList_toList]

theorem strip_listed_id (connection : Connection) (name : String) :
    strip_provider_model_prefix (connection.listed_id name) connection.prefix_id = name := by
  unfold Connection.listed_id
  split
  · rename_i none_set
    rw [none_set, strip_of_empty]
  · rename_i named
    exact strip_prefixed named name

theorem length_prefixed (prefix_id name : String) :
    (prefixed prefix_id name).toList.length = prefix_id.toList.length + 1 + name.toList.length := by
  rw [toList_prefixed, List.length_append, String.toList_append, List.length_append]
  rfl

theorem listed_id_eq_self : connection.listed_id name = name ↔ connection.prefix_id = "" := by
  unfold Connection.listed_id
  constructor
  · intro same
    by_contra named
    rw [if_neg named] at same
    have longer := length_prefixed connection.prefix_id name
    rw [same] at longer
    omega
  · exact fun none_set => if_pos none_set

/-- Every position recorded for an id is of a list with the id. -/
def Sourced {β : Type} (places : β → List Nat) (model_lists : List (List String))
    (merged : Dict String β) : Prop :=
  ∀ id recorded, merged.get? id = some recorded → ∀ position ∈ places recorded,
    ∃ ids, model_lists[position]? = some ids ∧ id ∈ ids

variable {model_lists : List (List String)} {entry : List String × Nat}

theorem merge_entries_sourced {merged : Dict String (List Nat)}
    (sourced : Sourced (fun positions => positions) model_lists merged)
    (placed : model_lists[entry.2]? = some entry.1) :
    Sourced (fun positions => positions) model_lists (merge_entries merged entry) := by
  refine List.foldlRecOn entry.1 _ sourced (fun merged sourced first inside => ?_)
  intro id positions found position member
  rw [Dict.get?_set] at found
  split at found
  · rename_i same
    subst same
    obtain rfl := Option.some.inj found
    rcases List.mem_append.mp member with member | member
    · cases before : merged.get? first with
      | none => simp [before] at member
      | some positions =>
        rw [before] at member
        exact sourced first positions before position member
    · obtain rfl := List.mem_singleton.mp member
      exact ⟨entry.1, placed, inside⟩
  · exact sourced id positions found position member

theorem merge_first_sourced {merged : Dict String Nat}
    (sourced : Sourced (fun position => [position]) model_lists merged)
    (placed : model_lists[entry.2]? = some entry.1) :
    Sourced (fun position => [position]) model_lists (merge_first merged entry) := by
  refine List.foldlRecOn entry.1 _ sourced (fun merged sourced first inside => ?_)
  split
  · exact sourced
  · intro id recorded found position member
    rw [Dict.get?_set] at found
    split at found
    · rename_i same
      subst same
      obtain rfl := Option.some.inj found
      obtain rfl := List.mem_singleton.mp member
      exact ⟨entry.1, placed, inside⟩
    · exact sourced id recorded found position member

theorem merge_models_lists_sourced (model_lists : List (List String)) :
    Sourced (fun positions => positions) model_lists (merge_models_lists model_lists) := by
  refine List.foldlRecOn model_lists.zipIdx _ (fun id recorded found => ?_)
    (fun merged sourced entry member => ?_)
  · simp at found
  · exact merge_entries_sourced sourced (List.mk_mem_zipIdx_iff_getElem?.mp member)

theorem get_merged_models_sourced (model_lists : List (List String)) :
    Sourced (fun position => [position]) model_lists (get_merged_models model_lists) := by
  refine List.foldlRecOn model_lists.zipIdx _ (fun id recorded found => ?_)
    (fun merged sourced entry member => ?_)
  · simp at found
  · exact merge_first_sourced sourced (List.mk_mem_zipIdx_iff_getElem?.mp member)

/-- The connection lists the id, under this name of its own. -/
def Lists (names : Connection → List String) (connection : Connection) (name id : String) : Prop :=
  name ∈ names connection ∧ connection.listed_id name = id

variable {backends : Backends} {provider : Provider}

theorem ollama_models_sound {positions : List Nat}
    (found : (ollama_models backends provider).get? id = some positions) :
    ∀ position ∈ positions, ∃ connection name, provider.connections[position]? = some connection ∧
      Lists (ollama_names backends provider) connection name id := by
  intro position member
  obtain ⟨ids, here, inside⟩ := merge_models_lists_sourced _ id positions found position member
  rw [List.getElem?_map] at here
  obtain ⟨connection, present, rfl⟩ := Option.map_eq_some_iff.mp here
  obtain ⟨name, own, same⟩ := List.mem_map.mp inside
  exact ⟨connection, name, present, own, same⟩

theorem openai_models_sound {skips : Connection → String → Bool} {position : Nat}
    (found : (openai_models backends skips provider).get? id = some position) :
    ∃ connection name, provider.connections[position]? = some connection ∧
      Lists (openai_names backends skips provider) connection name id := by
  obtain ⟨ids, here, inside⟩ := get_merged_models_sourced _ id position found position
    (List.mem_singleton_self _)
  rw [List.getElem?_map] at here
  obtain ⟨connection, present, rfl⟩ := Option.map_eq_some_iff.mp here
  obtain ⟨name, own, same⟩ := List.mem_map.mp inside
  exact ⟨connection, name, present, own, same⟩

end Providers

end OpenWebui

namespace OpenWebui

namespace Providers

structure World where
  ollama : Provider
  openai : Provider
  backends : Backends

/-- One worker's `app.state`, with the callers whose last listing its short cache of
listings may still hold. -/
structure Worker where
  ollama_models : Dict String (List Nat)
  ollama_cached : List String
  openai_models : Dict String Nat
  openai_cached : List String

def Worker.fresh : Worker where
  ollama_models := Dict.empty
  ollama_cached := []
  openai_models := Dict.empty
  openai_cached := []

/-- A request by model id. `cached` says that the short cache has not run out, `pick`
is what `random.choice` draws. -/
structure Request where
  worker : Nat
  caller : String
  model : String
  cached : Bool
  pick : Nat

structure Sent where
  position : Nat
  name : String
  deriving DecidableEq

variable (skips : Connection → String → Bool)

/-- Ollama's `get_all_models`, behind its short cache. -/
def list_ollama (world : World) (worker : Worker) (caller : String) (cached : Bool) : Worker :=
  if cached && decide (caller ∈ worker.ollama_cached) then worker
  else { worker with
    ollama_models := ollama_models world.backends world.ollama
    ollama_cached := caller :: worker.ollama_cached }

/-- OpenAI's `get_all_models`, behind its short cache. -/
def list_openai (world : World) (worker : Worker) (caller : String) (cached : Bool) : Worker :=
  if cached && decide (caller ∈ worker.openai_cached) then worker
  else { worker with
    openai_models := openai_models world.backends skips world.openai
    openai_cached := caller :: worker.openai_cached }

/-- When an endpoint asks for a listing: always, when it misses the model, or then
with the short cache cleared first. -/
inductive Lookup where
  | always
  | missing
  | clearing
  deriving DecidableEq

def look_up (lookup : Lookup) (world : World) (worker : Worker) (request : Request) : Worker :=
  match lookup with
  | .always => list_ollama world worker request.caller request.cached
  | .missing =>
    if request.model ∈ worker.ollama_models.keys then worker
    else list_ollama world worker request.caller request.cached
  | .clearing =>
    if request.model ∈ worker.ollama_models.keys then worker
    else list_ollama world { worker with ollama_cached := [] } request.caller request.cached

structure Choice where
  choose : Request → List Nat → List Nat
  within : ∀ request positions position, position ∈ choose request positions → position ∈ positions

/-- `random.choice(urls)`. -/
def random_choice : Choice where
  choose := fun request positions => (positions[request.pick % positions.length]?).toList
  within := fun _ _ _ member => List.mem_of_getElem? (Option.mem_toList.mp member)

/-- `urls[0]`. -/
def first_url : Choice where
  choose := fun _ positions => positions.head?.toList
  within := fun _ _ _ member => List.mem_of_mem_head? (Option.mem_toList.mp member)

def send_to (connections : List Connection) (strips : Bool) (model : String) (position : Nat) :
    List Sent :=
  match connections[position]? with
  | none => []
  | some connection =>
    [⟨position, if strips then strip_provider_model_prefix model connection.prefix_id else model⟩]

/-- An Ollama endpoint that sends one request on: how it looks the model up, which of
its positions it takes, and whether it undoes the prefix. -/
structure Endpoint where
  lookup : Lookup
  choice : Choice
  strips : Bool

def Endpoint.targets (endpoint : Endpoint) (world : World) (worker : Worker) (request : Request) :
    List Nat :=
  match (look_up endpoint.lookup world worker request).ollama_models.get? request.model with
  | none => []
  | some positions => endpoint.choice.choose request positions

def Endpoint.handle (endpoint : Endpoint) (world : World) (worker : Worker) (request : Request) :
    Worker × List Sent :=
  if world.ollama.enabled then
    (look_up endpoint.lookup world worker request,
      (endpoint.targets world worker request).flatMap
        (send_to world.ollama.connections endpoint.strips request.model))
  else (worker, [])

def generate_chat_completion : Endpoint := ⟨.clearing, random_choice, true⟩

def generate_completion : Endpoint := ⟨.always, random_choice, true⟩

def embed : Endpoint := ⟨.missing, random_choice, true⟩

def embeddings : Endpoint := ⟨.missing, random_choice, true⟩

def show_model_info : Endpoint := ⟨.always, random_choice, false⟩

def delete_model : Endpoint := ⟨.always, first_url, false⟩

def copy_model : Endpoint := ⟨.always, first_url, false⟩

def push_model : Endpoint := ⟨.always, first_url, false⟩

/-- The loop of `unload_model`: the name is stripped again at every position. -/
def unload_loop (connections : List Connection) : String → List Nat → List Sent
  | _, [] => []
  | model, position :: rest =>
    match connections[position]? with
    | none => []
    | some connection =>
      let model := strip_provider_model_prefix model connection.prefix_id
      ⟨position, model⟩ :: unload_loop connections model rest

/-- `unload_model` goes to every position and does not ask whether Ollama is enabled. -/
def unload_model (world : World) (worker : Worker) (request : Request) : Worker × List Sent :=
  let worker := list_ollama world worker request.caller request.cached
  match worker.ollama_models.get? request.model with
  | none => (worker, [])
  | some positions => (worker, unload_loop world.ollama.connections request.model positions)

def look_up_openai (world : World) (worker : Worker) (request : Request) : Worker :=
  if request.model ∈ worker.openai_models.keys then worker
  else list_openai skips world worker request.caller request.cached

def route_openai (checks : Bool) (world : World) (worker : Worker) (request : Request) :
    Worker × List Sent :=
  if checks && !world.openai.enabled then (worker, [])
  else
    let worker := look_up_openai skips world worker request
    match worker.openai_models.get? request.model with
    | none => (worker, [])
    | some position =>
      (worker, send_to world.openai.connections true request.model position)

def generate_openai_chat_completion := route_openai skips true

def get_anthropic_token_count_target := route_openai skips false

/-- What can happen. An update of the settings clears the list and the short cache of
the worker that handles it, and no other's. -/
inductive Event where
  | update_ollama (worker : Nat) (provider : Provider)
  | update_openai (worker : Nat) (provider : Provider)
  | answers (backends : Backends)
  | list_ollama (worker : Nat) (caller : String) (cached : Bool)
  | list_openai (worker : Nat) (caller : String) (cached : Bool)
  | chat (request : Request)
  | generate (request : Request)
  | embed (request : Request)
  | embeddings (request : Request)
  | show_info (request : Request)
  | unload (request : Request)
  | delete (request : Request)
  | copy (request : Request)
  | push (request : Request)
  | openai_chat (request : Request)
  | count_tokens (request : Request)

structure State where
  world : World
  workers : Nat → Worker

def State.start (world : World) : State := ⟨world, fun _ => Worker.fresh⟩

def State.set_worker (state : State) (index : Nat) (worker : Worker) : State :=
  { state with workers := fun other => if other = index then worker else state.workers other }

def State.handled (state : State) (index : Nat) (result : Worker × List Sent) :
    State × List Sent :=
  (state.set_worker index result.1, result.2)

def step (state : State) : Event → State × List Sent
  | .update_ollama index provider =>
    let cleared := { state.workers index with ollama_models := Dict.empty, ollama_cached := [] }
    ({ state with world := { state.world with ollama := provider } }.set_worker index cleared, [])
  | .update_openai index provider =>
    let cleared := { state.workers index with openai_models := Dict.empty, openai_cached := [] }
    ({ state with world := { state.world with openai := provider } }.set_worker index cleared, [])
  | .answers backends => ({ state with world := { state.world with backends := backends } }, [])
  | .list_ollama index caller cached =>
    (state.set_worker index (list_ollama state.world (state.workers index) caller cached), [])
  | .list_openai index caller cached =>
    (state.set_worker index (list_openai skips state.world (state.workers index) caller cached), [])
  | .chat request => state.handled request.worker
    (generate_chat_completion.handle state.world (state.workers request.worker) request)
  | .generate request => state.handled request.worker
    (generate_completion.handle state.world (state.workers request.worker) request)
  | .embed request => state.handled request.worker
    (Providers.embed.handle state.world (state.workers request.worker) request)
  | .embeddings request => state.handled request.worker
    (Providers.embeddings.handle state.world (state.workers request.worker) request)
  | .show_info request => state.handled request.worker
    (show_model_info.handle state.world (state.workers request.worker) request)
  | .unload request => state.handled request.worker
    (unload_model state.world (state.workers request.worker) request)
  | .delete request => state.handled request.worker
    (delete_model.handle state.world (state.workers request.worker) request)
  | .copy request => state.handled request.worker
    (copy_model.handle state.world (state.workers request.worker) request)
  | .push request => state.handled request.worker
    (push_model.handle state.world (state.workers request.worker) request)
  | .openai_chat request => state.handled request.worker
    (generate_openai_chat_completion skips state.world (state.workers request.worker) request)
  | .count_tokens request => state.handled request.worker
    (get_anthropic_token_count_target skips state.world (state.workers request.worker) request)

def run (state : State) (events : List Event) : State :=
  events.foldl (fun state event => (step skips state event).1) state

end Providers

end OpenWebui
