import OpenWebui.Providers.Routing

/-! When a request by model id reaches a connection that lists the model, under that connection's
own name for it. -/

namespace OpenWebui

namespace Providers

variable {skips : Connection → String → Bool} {names : Connection → List String}
  {connections : List Connection} {model : String}

/-- It goes to a connection that lists the model, under its own name there. -/
def Right (names : Connection → List String) (connections : List Connection) (model : String)
    (sent : Sent) : Prop :=
  ∃ connection, connections[sent.position]? = some connection ∧
    Lists names connection sent.name model

/-- If there is a connection at the position, it lists the model. -/
def Serves (names : Connection → List String) (connections : List Connection) (model : String)
    (position : Nat) : Prop :=
  ∀ connection, connections[position]? = some connection → ∃ name, Lists names connection name model

/-- If there is a connection at the position, it has no prefix. -/
def Unprefixed (connections : List Connection) (position : Nat) : Prop :=
  ∀ connection, connections[position]? = some connection → connection.prefix_id = ""

theorem Lists.strip {connection : Connection} {name : String}
    (lists : Lists names connection name model) :
    strip_provider_model_prefix model connection.prefix_id = name := by
  rw [← lists.2, strip_listed_id]

theorem send_to_right_iff {strips : Bool} {position : Nat} :
    (∀ sent ∈ send_to connections strips model position, Right names connections model sent) ↔
      Serves names connections model position ∧
        (strips = false → Unprefixed connections position) := by
  unfold send_to Serves Unprefixed
  cases found : connections[position]? with
  | none => simp
  | some connection =>
    simp only [List.mem_singleton, forall_eq, Right, found, Option.some.injEq, exists_eq_left',
      forall_eq']
    cases strips with
    | true =>
      simp only [if_true, Bool.true_eq_false, false_implies, and_true]
      constructor
      · exact fun right => ⟨_, right⟩
      · rintro ⟨name, lists⟩
        rwa [lists.strip]
    | false =>
      simp only [Bool.false_eq_true, if_false, true_implies]
      constructor
      · intro right
        exact ⟨⟨model, right⟩, listed_id_eq_self.mp right.2⟩
      · rintro ⟨⟨name, lists⟩, none_set⟩
        have same := (@listed_id_eq_self _ name).mpr none_set
        rw [lists.2] at same
        rw [same]
        exact same ▸ lists

def reached (connections : List Connection) (positions : List Nat) : List Nat :=
  positions.takeWhile (fun position => decide (position < connections.length))

theorem reached_cons_of_some {position : Nat} {connection : Connection}
    (found : connections[position]? = some connection) (rest : List Nat) :
    reached connections (position :: rest) = position :: reached connections rest := by
  have bound := (List.getElem?_eq_some_iff.mp found).1
  simp [reached, bound]

theorem reached_cons_of_none {position : Nat} (missing : connections[position]? = none)
    (rest : List Nat) : reached connections (position :: rest) = [] := by
  have bound := List.getElem?_eq_none_iff.mp missing
  simp [reached, Nat.not_lt.mpr bound]

theorem prefixed_inj {first second name : String}
    (same : prefixed first name = prefixed second name) : first = second := by
  have lists := congrArg String.toList same
  rw [toList_prefixed, toList_prefixed, List.append_cancel_right_eq, String.toList_append,
    String.toList_append, List.append_cancel_right_eq] at lists
  exact String.toList_inj.mp lists

theorem prefixed_right_inj {prefix_id first second : String}
    (same : prefixed prefix_id first = prefixed prefix_id second) : first = second := by
  have lists := congrArg String.toList same
  rw [toList_prefixed, toList_prefixed, List.append_cancel_left_eq] at lists
  exact String.toList_inj.mp lists

theorem strip_cases (model_id prefix_id : String) :
    strip_provider_model_prefix model_id prefix_id = model_id ∨
      (prefix_id ≠ "" ∧
        model_id = prefixed prefix_id ( strip_provider_model_prefix model_id prefix_id)) := by
  unfold strip_provider_model_prefix
  split
  · rename_i has
    obtain ⟨named, rest, whole⟩ := has
    refine .inr ⟨named, ?_⟩
    apply String.toList_inj.mp
    rw [toList_prefixed, String.toList_ofList, ← whole, List.drop_left]
  · exact .inl rfl

theorem lists_after_strip {connection : Connection} {prefix_id name : String}
    (whole : prefixed prefix_id name = model)
    (lists : Lists names connection
      ( strip_provider_model_prefix name connection.prefix_id) model) :
    connection.prefix_id = prefix_id ∧
      strip_provider_model_prefix name connection.prefix_id = name := by
  have listed := lists.2
  have long := length_prefixed prefix_id name
  rw [whole] at long
  rcases strip_cases name connection.prefix_id with kept | ⟨named, again⟩
  · rw [kept] at listed
    refine ⟨?_, kept⟩
    unfold Connection.listed_id at listed
    split at listed
    · rw [listed] at long
      omega
    · exact prefixed_inj (listed.trans whole.symm)
  · have shorter := length_prefixed connection.prefix_id
      ( strip_provider_model_prefix name connection.prefix_id)
    rw [← again] at shorter
    rw [Connection.listed_id, if_neg named, ← again] at listed
    rw [← listed] at long
    omega

theorem unload_loop_stripped {prefix_id name : String} (whole : prefixed prefix_id name = model)
    (named : prefix_id ≠ "") (positions : List Nat) :
    (∀ sent ∈ unload_loop connections name positions, Right names connections model sent) ↔
      ∀ position ∈ reached connections positions, Serves names connections model position ∧
        ∀ connection, connections[position]? = some connection →
          connection.prefix_id = prefix_id ∧ strip_provider_model_prefix name prefix_id = name := by
  induction positions with
  | nil => simp [unload_loop, reached]
  | cons position rest ih =>
    cases found : connections[position]? with
    | none =>
      rw [unload_loop, found, reached_cons_of_none found]
      simp
    | some connection =>
      rw [unload_loop, found, reached_cons_of_some found, List.forall_mem_cons]
      simp only [List.forall_mem_cons]
      have head : Right names connections model
          ⟨position, strip_provider_model_prefix name connection.prefix_id⟩ ↔
          Serves names connections model position ∧
            ∀ connection, connections[position]? = some connection →
              connection.prefix_id = prefix_id ∧
                strip_provider_model_prefix name prefix_id = name := by
        simp only [Right, Serves, found, Option.some.injEq, exists_eq_left', forall_eq']
        constructor
        · intro lists
          obtain ⟨same, kept⟩ := lists_after_strip whole lists
          exact ⟨⟨_, lists⟩, same, same ▸ kept⟩
        · rintro ⟨⟨own, lists⟩, same, kept⟩
          have listed := lists.2
          rw [Connection.listed_id, same, if_neg named, ← whole] at listed
          rw [same, kept, ← prefixed_right_inj listed]
          exact lists
      rw [head]
      refine and_congr_right (fun facts => ?_)
      obtain ⟨same, kept⟩ := facts.2 connection found
      have unchanged : strip_provider_model_prefix name connection.prefix_id = name := by
        rw [same, kept]
      rw [unchanged]
      exact ih

/-- Once the first of two connections has undone its prefix, the second has to have the
same one, and no second one to undo. -/
def Follows (connections : List Connection) (model : String) (first second : Nat) : Prop :=
  ∀ earlier later, connections[first]? = some earlier → connections[second]? = some later →
    earlier.prefix_id ≠ "" → later.prefix_id = earlier.prefix_id ∧
      strip_provider_model_prefix ( strip_provider_model_prefix model earlier.prefix_id)
        earlier.prefix_id = strip_provider_model_prefix model earlier.prefix_id

theorem unload_loop_right_iff (positions : List Nat) :
    (∀ sent ∈ unload_loop connections model positions, Right names connections model sent) ↔
      (∀ position ∈ reached connections positions, Serves names connections model position) ∧
        (reached connections positions).Pairwise (Follows connections model) := by
  induction positions with
  | nil => simp [unload_loop, reached]
  | cons position rest ih =>
    cases found : connections[position]? with
    | none =>
      rw [unload_loop, found, reached_cons_of_none found]
      simp
    | some connection =>
      rw [unload_loop, found, reached_cons_of_some found, List.forall_mem_cons]
      simp only [List.forall_mem_cons, List.pairwise_cons]
      have head : Right names connections model
          ⟨position, strip_provider_model_prefix model connection.prefix_id⟩ ↔
          Serves names connections model position := by
        simp only [Right, Serves, found, Option.some.injEq, exists_eq_left', forall_eq']
        constructor
        · exact fun lists => ⟨_, lists⟩
        · rintro ⟨own, lists⟩
          rwa [lists.strip]
      rw [head, and_assoc]
      refine and_congr_right (fun serves => ?_)
      obtain ⟨own, lists⟩ := serves connection found
      by_cases none_set : connection.prefix_id = ""
      · -- Nothing is undone here, so the rest starts from the model's id again.
        have unbound : ∀ later ∈ reached connections rest, Follows connections model position later := by
          intro later _ earlier other here _ named
          obtain rfl := Option.some.inj (found.symm.trans here)
          exact absurd none_set named
        rw [none_set, strip_of_empty, ih]
        exact and_congr_right (fun _ => (and_iff_right unbound).symm)
      · have whole : prefixed connection.prefix_id own = model := by
          rw [← lists.2, Connection.listed_id, if_neg none_set]
        rw [lists.strip, unload_loop_stripped whole none_set]
        constructor
        · intro each
          have follow : ∀ first ∈ position :: reached connections rest,
              ∀ later ∈ reached connections rest, Follows connections model first later := by
            intro first member later present earlier other here there named
            have same : earlier.prefix_id = connection.prefix_id := by
              rcases List.mem_cons.mp member with rfl | member
              · exact congrArg Connection.prefix_id (Option.some.inj (here.symm.trans found))
              · exact ((each first member).2 earlier here).1
            obtain ⟨same', kept⟩ := (each later present).2 other there
            rw [same, lists.strip]
            exact ⟨same', kept⟩
          refine ⟨fun later member => (each later member).1, follow position List.mem_cons_self, ?_⟩
          exact List.pairwise_of_forall_mem_list (fun first member later present =>
            follow first (List.mem_cons_of_mem _ member) later present)
        · rintro ⟨serve, follows, _⟩ later member
          refine ⟨serve later member, fun other there => ?_⟩
          obtain ⟨same, kept⟩ := follows later member connection other found there none_set
          rw [lists.strip] at kept
          exact ⟨same, kept⟩

end Providers

end OpenWebui

namespace OpenWebui

namespace Providers

variable (skips : Connection → String → Bool)

def World.ollama_names (world : World) : Connection → List String :=
  Providers.ollama_names world.backends world.ollama

def World.openai_names (world : World) : Connection → List String :=
  Providers.openai_names world.backends skips world.openai

def Event.ollama_request : Event → Option Request
  | .chat request | .generate request | .embed request | .embeddings request
  | .show_info request | .unload request | .delete request | .copy request | .push request =>
    some request
  | _ => none

def Event.openai_request : Event → Option Request
  | .openai_chat request | .count_tokens request => some request
  | _ => none

/-- Whatever the event sends out reaches a connection of the current settings that
lists the requested model, under that connection's own name. -/
structure Delivered (state : State) (event : Event) : Prop where
  ollama : ∀ request, event.ollama_request = some request → ∀ sent ∈ (step skips state event).2,
    Right state.world.ollama_names state.world.ollama.connections request.model sent
  openai : ∀ request, event.openai_request = some request → ∀ sent ∈ (step skips state event).2,
    Right (state.world.openai_names skips) state.world.openai.connections request.model sent

/-- The endpoint answers from what the worker remembers. -/
def Remembers (lookup : Lookup) (worker : Worker) (request : Request) : Prop :=
  match lookup with
  | .always => request.cached = true ∧ request.caller ∈ worker.ollama_cached
  | _ => request.model ∈ worker.ollama_models.keys

/-- Where Ollama is enabled, the positions the endpoint takes from a remembered list
still serve the model, and if it sends the listed id on, they have no prefix. -/
def Endpoint.Fits (endpoint : Endpoint) (world : World) (worker : Worker) (request : Request) :
    Prop :=
  world.ollama.enabled = true →
    (Remembers endpoint.lookup worker request →
      ∀ position ∈ endpoint.targets world worker request,
        Serves world.ollama_names world.ollama.connections request.model position) ∧
    (endpoint.strips = false → ∀ position ∈ endpoint.targets world worker request,
      Unprefixed world.ollama.connections position)

/-- Of the positions an unloading goes to, those of a remembered list still serve the
model, and none comes after one with another prefix. -/
def UnloadFits (world : World) (worker : Worker) (request : Request) : Prop :=
  ∀ positions, (list_ollama world worker request.caller request.cached).ollama_models.get?
      request.model = some positions →
    (Remembers .always worker request → ∀ position ∈ reached world.ollama.connections positions,
      Serves world.ollama_names world.ollama.connections request.model position) ∧
    (reached world.ollama.connections positions).Pairwise
      (Follows world.ollama.connections request.model)

/-- The position remembered for the model still serves it. -/
def OpenAIFits (checks : Bool) (world : World) (worker : Worker) (request : Request) : Prop :=
  (checks && !world.openai.enabled) = false →
    ∀ position, worker.openai_models.get? request.model = some position →
      Serves (world.openai_names skips) world.openai.connections request.model position

/-- When an event delivers rightly: a condition on the state before it. -/
def Fits (state : State) : Event → Prop
  | .chat request =>
    generate_chat_completion.Fits state.world (state.workers request.worker) request
  | .generate request =>
    generate_completion.Fits state.world (state.workers request.worker) request
  | .embed request => Providers.embed.Fits state.world (state.workers request.worker) request
  | .embeddings request =>
    Providers.embeddings.Fits state.world (state.workers request.worker) request
  | .show_info request => show_model_info.Fits state.world (state.workers request.worker) request
  | .unload request => UnloadFits state.world (state.workers request.worker) request
  | .delete request => delete_model.Fits state.world (state.workers request.worker) request
  | .copy request => copy_model.Fits state.world (state.workers request.worker) request
  | .push request => push_model.Fits state.world (state.workers request.worker) request
  | .openai_chat request =>
    OpenAIFits skips true state.world (state.workers request.worker) request
  | .count_tokens request =>
    OpenAIFits skips false state.world (state.workers request.worker) request
  | _ => True

variable {skips} {world : World} {worker : Worker} {request : Request}

theorem serves_of_listed {id : String} {positions : List Nat}
    (found : (ollama_models world.backends world.ollama).get? id = some positions) :
    ∀ position ∈ positions, Serves world.ollama_names world.ollama.connections id position := by
  intro position member connection here
  obtain ⟨listing, name, present, lists⟩ := ollama_models_sound found position member
  obtain rfl := Option.some.inj (present.symm.trans here)
  exact ⟨name, lists⟩

theorem list_ollama_cases (world : World) (worker : Worker) (caller : String) (cached : Bool) :
    (cached = true ∧ caller ∈ worker.ollama_cached ∧
        list_ollama world worker caller cached = worker) ∨
      (list_ollama world worker caller cached).ollama_models =
        ollama_models world.backends world.ollama := by
  unfold list_ollama
  split
  · rename_i held
    rw [Bool.and_eq_true, decide_eq_true_eq] at held
    exact .inl ⟨held.1, held.2, rfl⟩
  · exact .inr rfl

theorem list_openai_cases (world : World) (worker : Worker) (caller : String) (cached : Bool) :
    (list_openai skips world worker caller cached).openai_models = worker.openai_models ∨
      (list_openai skips world worker caller cached).openai_models =
        openai_models world.backends skips world.openai := by
  unfold list_openai
  split
  · exact .inl rfl
  · exact .inr rfl

theorem Endpoint.serves_of_new (endpoint : Endpoint)
    (new : ¬ Remembers endpoint.lookup worker request) :
    ∀ position ∈ endpoint.targets world worker request,
      Serves world.ollama_names world.ollama.connections request.model position := by
  intro position member
  unfold Endpoint.targets at member
  cases found : (look_up endpoint.lookup world worker request).ollama_models.get? request.model with
  | none => simp [found] at member
  | some positions =>
    rw [found] at member
    have inside := endpoint.choice.within request positions position member
    have made : (ollama_models world.backends world.ollama).get? request.model = some positions := by
      cases lookup : endpoint.lookup with
      | always =>
        simp only [lookup, Remembers] at new
        simp only [lookup, look_up] at found
        rcases list_ollama_cases world worker request.caller request.cached with
          ⟨cached, held, _⟩ | fresh
        · exact absurd ⟨cached, held⟩ new
        · rwa [fresh] at found
      | missing =>
        simp only [lookup, Remembers] at new
        simp only [lookup, look_up, if_neg new] at found
        rcases list_ollama_cases world worker request.caller request.cached with
          ⟨_, _, kept⟩ | fresh
        · rw [kept] at found
          exact absurd (Dict.mem_keys_of_get? found) new
        · rwa [fresh] at found
      | clearing =>
        simp only [lookup, Remembers] at new
        simp only [lookup, look_up, if_neg new] at found
        rcases list_ollama_cases world { worker with ollama_cached := [] } request.caller
            request.cached with ⟨_, held, _⟩ | fresh
        · cases held
        · rwa [fresh] at found
    exact serves_of_listed made position inside

theorem Endpoint.fits_iff (endpoint : Endpoint) :
    (∀ sent ∈ (endpoint.handle world worker request).2,
      Right world.ollama_names world.ollama.connections request.model sent) ↔
      endpoint.Fits world worker request := by
  unfold Endpoint.handle Endpoint.Fits
  by_cases enabled : world.ollama.enabled = true
  · simp only [enabled, if_true, true_implies]
    have each : (∀ sent ∈ (endpoint.targets world worker request).flatMap
          (send_to world.ollama.connections endpoint.strips request.model),
        Right world.ollama_names world.ollama.connections request.model sent) ↔
        ∀ position ∈ endpoint.targets world worker request,
          Serves world.ollama_names world.ollama.connections request.model position ∧
            (endpoint.strips = false → Unprefixed world.ollama.connections position) := by
      constructor
      · intro right position member
        refine send_to_right_iff.mp (fun sent inside => right sent ?_)
        exact List.mem_flatMap.mpr ⟨position, member, inside⟩
      · intro fit sent inside
        obtain ⟨position, member, inside⟩ := List.mem_flatMap.mp inside
        exact send_to_right_iff.mpr (fit position member) sent inside
    rw [each]
    constructor
    · intro fit
      exact ⟨fun _ position member => (fit position member).1,
        fun keeps position member => (fit position member).2 keeps⟩
    · rintro ⟨remembered, bare⟩ position member
      refine ⟨?_, fun keeps => bare keeps position member⟩
      by_cases memory : Remembers endpoint.lookup worker request
      · exact remembered memory position member
      · exact endpoint.serves_of_new memory position member
  · simp [enabled]

theorem unload_fits_iff :
    (∀ sent ∈ (unload_model world worker request).2,
      Right world.ollama_names world.ollama.connections request.model sent) ↔
      UnloadFits world worker request := by
  unfold unload_model UnloadFits
  cases found : (list_ollama world worker request.caller request.cached).ollama_models.get?
      request.model with
  | none => simp [found]
  | some positions =>
    simp only [found, Option.some.injEq, forall_eq']
    rw [unload_loop_right_iff]
    refine and_congr_left (fun _ => ⟨fun serves _ => serves, fun remembered => ?_⟩)
    by_cases memory : Remembers .always worker request
    · exact remembered memory
    · intro position member
      have inside : position ∈ positions := (List.takeWhile_sublist _).subset member
      rcases list_ollama_cases world worker request.caller request.cached with
        ⟨cached, held, _⟩ | fresh
      · exact absurd ⟨cached, held⟩ memory
      · rw [fresh] at found
        exact serves_of_listed found position inside

theorem openai_fits_iff (checks : Bool) :
    (∀ sent ∈ (route_openai skips checks world worker request).2,
      Right (world.openai_names skips) world.openai.connections request.model sent) ↔
      OpenAIFits skips checks world worker request := by
  unfold route_openai OpenAIFits
  cases off : checks && !world.openai.enabled with
  | true => simp
  | false =>
    simp only [Bool.false_eq_true, if_false, true_implies]
    by_cases known : request.model ∈ worker.openai_models.keys
    · have same : look_up_openai skips world worker request = worker := if_pos known
      obtain ⟨position, found⟩ := Dict.exists_of_mem_keys known
      rw [same]
      simp only [found, Option.some.injEq, forall_eq']
      rw [send_to_right_iff]
      simp
    · have missing := Dict.get?_eq_none.mpr known
      have unasked : ∀ position, worker.openai_models.get? request.model = some position →
          Serves (world.openai_names skips) world.openai.connections request.model position := by
        intro position found
        rw [missing] at found
        cases found
      refine iff_of_true ?_ unasked
      have looked : (look_up_openai skips world worker request).openai_models = worker.openai_models ∨
          (look_up_openai skips world worker request).openai_models =
            openai_models world.backends skips world.openai := by
        rw [look_up_openai, if_neg known]
        exact list_openai_cases world worker request.caller request.cached
      rcases looked with kept | fresh
      · rw [kept, missing]
        simp
      · rw [fresh]
        cases found : (openai_models world.backends skips world.openai).get? request.model with
        | none => simp
        | some position =>
          refine send_to_right_iff.mpr ⟨?_, by simp⟩
          intro connection here
          obtain ⟨listing, name, present, lists⟩ := openai_models_sound found
          obtain rfl := Option.some.inj (present.symm.trans here)
          exact ⟨name, lists⟩

theorem delivered_iff (state : State) (event : Event) :
    Delivered skips state event ↔ Fits skips state event := by
  have ollama : ∀ request, event.ollama_request = some request → event.openai_request = none →
      (Delivered skips state event ↔ ∀ sent ∈ (step skips state event).2,
        Right state.world.ollama_names state.world.ollama.connections request.model sent) := by
    intro request asked other
    refine ⟨fun delivered => delivered.ollama request asked, fun right => ⟨?_, ?_⟩⟩
    · intro request' asked'
      obtain rfl := Option.some.inj (asked.symm.trans asked')
      exact right
    · intro request' asked'
      rw [other] at asked'
      cases asked'
  have openai : ∀ request, event.openai_request = some request → event.ollama_request = none →
      (Delivered skips state event ↔ ∀ sent ∈ (step skips state event).2,
        Right (state.world.openai_names skips) state.world.openai.connections request.model sent) := by
    intro request asked other
    refine ⟨fun delivered => delivered.openai request asked, fun right => ⟨?_, ?_⟩⟩
    · intro request' asked'
      rw [other] at asked'
      cases asked'
    · intro request' asked'
      obtain rfl := Option.some.inj (asked.symm.trans asked')
      exact right
  cases event with
  | chat request => exact (ollama request rfl rfl).trans (Endpoint.fits_iff _)
  | generate request => exact (ollama request rfl rfl).trans (Endpoint.fits_iff _)
  | embed request => exact (ollama request rfl rfl).trans (Endpoint.fits_iff _)
  | embeddings request => exact (ollama request rfl rfl).trans (Endpoint.fits_iff _)
  | show_info request => exact (ollama request rfl rfl).trans (Endpoint.fits_iff _)
  | unload request => exact (ollama request rfl rfl).trans unload_fits_iff
  | delete request => exact (ollama request rfl rfl).trans (Endpoint.fits_iff _)
  | copy request => exact (ollama request rfl rfl).trans (Endpoint.fits_iff _)
  | push request => exact (ollama request rfl rfl).trans (Endpoint.fits_iff _)
  | openai_chat request => exact (openai request rfl rfl).trans (openai_fits_iff true)
  | count_tokens request => exact (openai request rfl rfl).trans (openai_fits_iff false)
  | update_ollama | update_openai | answers | list_ollama | list_openai =>
    refine iff_of_true ⟨?_, ?_⟩ trivial
    · rintro request ⟨⟩
    · rintro request ⟨⟩

/-- The property holds at every event of a run. -/
def Along (skips : Connection → String → Bool) (property : State → Event → Prop) :
    State → List Event → Prop
  | _, [] => True
  | state, event :: rest => property state event ∧ Along skips property (step skips state event).1 rest

/-- In every run, from workers that have listed nothing, all requests are delivered
rightly exactly when the state before each of them fits. -/
theorem deliveries_right_iff (skips : Connection → String → Bool) (world : World)
    (events : List Event) :
    Along skips (Delivered skips) (State.start world) events ↔
      Along skips (Fits skips) (State.start world) events := by
  have from_any : ∀ state, Along skips (Delivered skips) state events ↔
      Along skips (Fits skips) state events := by
    induction events with
    | nil => exact fun _ => Iff.rfl
    | cons event rest ih =>
      intro state
      exact and_congr (delivered_iff state event) (ih _)
  exact from_any _

section Prefixed

def prefixed_world : World where
  ollama := ⟨true, [⟨"http://ollama", "", true, "lab", []⟩]⟩
  openai := ⟨false, []⟩
  backends := fun _ => some ["llama3"]

def deletion : Request := ⟨0, "root", "lab.llama3", false, 0⟩

/-- A deletion asks the server for a model by the id it is listed under here. -/
theorem deletion_not_delivered :
    ¬ Along (fun _ _ => false) (Delivered (fun _ _ => false)) (State.start prefixed_world)
      [.delete deletion] := by
  rintro ⟨delivered, _⟩
  have sent : (step (fun _ _ => false) (State.start prefixed_world) (.delete deletion)).2 =
      [⟨0, "lab.llama3"⟩] := by decide +kernel
  obtain ⟨connection, here, own, _⟩ := delivered.ollama deletion rfl ⟨0, "lab.llama3"⟩
    (by rw [sent]; exact List.mem_singleton_self _)
  obtain rfl := Option.some.inj here
  have answered : (State.start prefixed_world).world.ollama_names
      ⟨"http://ollama", "", true, "lab", []⟩ = ["llama3"] := by decide +kernel
  rw [answered] at own
  exact absurd own (by decide)

end Prefixed

end Providers

end OpenWebui
