import Mathlib.Data.List.Induction
import OpenWebui.Base.Runs
import OpenWebui.Tools.Resolve

/-! When the tools that are advertised to the model are the tools that its calls reach. -/

namespace OpenWebui.Tools

/-- The names sent to the model are distinct, every tool is sent, and a call of the name of a tool
runs this tool. -/
structure Agree (tools : Dict String ToolEntry) : Prop where
  distinct : ((advertisedTools tools).map Spec.name).Nodup
  complete : ∀ entry ∈ tools.entries, entry.2.spec ∈ advertisedTools tools
  dispatched : ∀ entry ∈ tools.entries,
    dispatch tools entry.2.spec.name = some entry.2.callable

/-- Every tool is stored under the name of its spec. -/
def WellNamed (tools : Dict String ToolEntry) : Prop :=
  ∀ name tool, tools.get? name = some tool → tool.spec.name = name

/-- A tool that the client runs is stored under the name of its spec. -/
def DirectNamed (tools : Dict String ToolEntry) : Prop :=
  ∀ name tool, tools.get? name = some tool →
    tool.spec.name = name ∨ tool.callable.isDirect = false

theorem called_of_stored {callable : Callable} (stored : callable.isDirect = false)
    (name : String) : callable.called name = callable := by
  cases callable <;> first | rfl | cases stored

theorem called_advertised (callable : Callable) :
    callable.called callable.advertised = callable := by
  cases callable <;> rfl

theorem called_isDirect (callable : Callable) (name : String) :
    (callable.called name).isDirect = callable.isDirect := by
  cases callable <;> rfl

theorem agree_of_wellNamed {tools : Dict String ToolEntry} (named : WellNamed tools) :
    Agree tools := by
  have names : (advertisedTools tools).map Spec.name = tools.keys := by
    rw [advertisedTools, List.map_map]
    refine List.map_congr_left ?_
    intro entry member
    exact named entry.1 entry.2 (Dict.mem_entries_iff.mp member)
  refine ⟨?_, fun entry member => List.mem_map_of_mem member, ?_⟩
  · rw [names]
    exact tools.keys_nodup
  · intro entry member
    have found := Dict.mem_entries_iff.mp member
    have same := named entry.1 entry.2 found
    rw [dispatch, same, found, Option.map_some, ← same, entry.2.named, called_advertised]

theorem wellNamed_of_agree {tools : Dict String ToolEntry} (direct : DirectNamed tools)
    (agree : Agree tools) : WellNamed tools := by
  intro name tool found
  by_contra different
  have member := Dict.mem_entries_iff.mpr (found : tools.get? (name, tool).1 = some (name, tool).2)
  have stored := (direct name tool found).resolve_left different
  obtain ⟨other, there, runs⟩ := Option.map_eq_some_iff.mp (agree.dispatched _ member)
  have other_stored : other.callable.isDirect = false := by
    rw [← called_isDirect other.callable tool.spec.name, runs]
    exact stored
  rw [called_of_stored other_stored] at runs
  have same_name : other.spec.name = tool.spec.name := by
    rw [other.named, tool.named, runs]
  have distinct := agree.distinct
  rw [advertisedTools, List.map_map] at distinct
  have same := List.inj_on_of_nodup_map distinct
    (Dict.mem_entries_iff.mpr (there : tools.get? (tool.spec.name, other).1 =
      some (tool.spec.name, other).2)) member same_name
  exact different (congrArg Prod.fst same)

theorem agree_iff_wellNamed {tools : Dict String ToolEntry} (direct : DirectNamed tools) :
    Agree tools ↔ WellNamed tools :=
  ⟨wellNamed_of_agree direct, agree_of_wellNamed⟩

/-- Under some names there are other tools now, each under the name of its spec. -/
structure Overlay (before after : Dict String ToolEntry) (names : List String) : Prop where
  others : ∀ name, name ∉ names → after.get? name = before.get? name
  written : ∀ name ∈ names, ∃ tool, after.get? name = some tool ∧ tool.spec.name = name

theorem Overlay.refl (tools : Dict String ToolEntry) : Overlay tools tools [] :=
  ⟨fun _ _ => rfl, fun _ member => absurd member List.not_mem_nil⟩

theorem Overlay.trans {first second third : Dict String ToolEntry} {early late : List String}
    (one : Overlay first second early) (two : Overlay second third late) :
    Overlay first third (early ++ late) := by
  constructor
  · intro name apart
    rw [List.mem_append, not_or] at apart
    rw [two.others name apart.2, one.others name apart.1]
  · intro name member
    by_cases later : name ∈ late
    · exact two.written name later
    · rw [two.others name later]
      exact one.written name ((List.mem_append.mp member).resolve_right later)

theorem overlay_setNamed (tools : Dict String ToolEntry) (tool : ToolEntry) :
    Overlay tools (setNamed tools tool) [tool.spec.name] := by
  constructor
  · intro name apart
    rw [setNamed, Dict.get?_set, if_neg (fun same => apart (List.mem_singleton.mpr same.symm))]
  · intro name member
    obtain rfl := List.mem_singleton.mp member
    exact ⟨tool, by rw [setNamed, Dict.get?_set, if_pos rfl], rfl⟩

theorem overlay_foldl_setNamed (entries : List ToolEntry) (tools : Dict String ToolEntry) :
    Overlay tools (entries.foldl setNamed tools) (entries.map (fun tool => tool.spec.name)) := by
  induction entries generalizing tools with
  | nil => exact Overlay.refl tools
  | cons tool rest ih => exact (overlay_setNamed tools tool).trans (ih (setNamed tools tool))

theorem overlay_merge (tools : Dict String ToolEntry) (entries : List ToolEntry) :
    Overlay tools (tools.merge (entries.foldl setNamed Dict.empty))
      (entries.map (fun tool => tool.spec.name)) := by
  have collected := overlay_foldl_setNamed entries Dict.empty
  constructor
  · intro name apart
    rw [Dict.get?_merge, collected.others name apart]
    rfl
  · intro name member
    obtain ⟨tool, found, same⟩ := collected.written name member
    exact ⟨tool, by rw [Dict.get?_merge, found]; rfl, same⟩

def replacingNames (sources : Sources) (tool_ids : List String) (terminal_specs : List Spec) :
    List String :=
  (((tool_ids.filter isMcp).flatMap (mcpEntries sources)) ++ terminal_specs.map terminalEntry ++
    sources.direct_tool_servers.flatMap directEntries).map (fun tool => tool.spec.name)

theorem wellNamed_addBuiltin (tools : Dict String ToolEntry) (spec : Spec) :
    WellNamed (addBuiltin tools spec) ↔ WellNamed tools := by
  unfold addBuiltin
  split
  · exact Iff.rfl
  · rename_i absent
    constructor
    · intro named name tool found
      refine named name tool ?_
      have other : spec.name ≠ name := by
        rintro rfl
        exact absent (Dict.mem_keys_of_get? found)
      rw [Dict.get?_set, if_neg other, found]
    · intro named name tool found
      rw [Dict.get?_set] at found
      split at found
      · rename_i same
        obtain rfl := Option.some.inj found
        exact same
      · exact named name tool found

theorem directNamed_addBuiltin {tools : Dict String ToolEntry} (direct : DirectNamed tools)
    (spec : Spec) : DirectNamed (addBuiltin tools spec) := by
  unfold addBuiltin
  split
  · exact direct
  · intro name tool found
    rw [Dict.get?_set] at found
    split at found
    · obtain rfl := Option.some.inj found
      exact Or.inr rfl
    · exact direct name tool found

theorem wellNamed_builtins (builtin_tools : List Spec) (tools : Dict String ToolEntry) :
    WellNamed (builtin_tools.foldl addBuiltin tools) ↔ WellNamed tools := by
  induction builtin_tools generalizing tools with
  | nil => exact Iff.rfl
  | cons spec rest ih => exact (ih _).trans (wellNamed_addBuiltin tools spec)

theorem directNamed_builtins (builtin_tools : List Spec) {tools : Dict String ToolEntry}
    (direct : DirectNamed tools) : DirectNamed (builtin_tools.foldl addBuiltin tools) := by
  induction builtin_tools generalizing tools with
  | nil => exact direct
  | cons spec rest ih => exact ih (directNamed_addBuiltin direct spec)

def loadAll (sources : Sources) (tool_ids : List String) : Except PyError (List Loaded) :=
  (tool_ids.foldlM (fun state tool_id =>
    (load sources state.1 tool_id).map (fun loaded => (loaded.1, state.2 ++ loaded.2)))
      ((none : Option (String × String)), [])).map Prod.snd

def takenNames (functions : List Loaded) : List String :=
  (functions.foldl register Dict.empty).keys

def storedName (earlier : List Loaded) (function : Loaded) : String :=
  freeName (takenNames earlier) function.owner function.entry.spec.name

theorem freeName_free (taken : List String) (owner name : String) :
    freeName taken owner name ∉ taken := by
  refine firstFree_free String.length ?_ (Nat.le_refl _) name
  intro shorter
  have longer : (owner ++ "_" ++ shorter).length = owner.length + 1 + shorter.length := by
    rw [String.length_append, String.length_append]
    rfl
  omega

theorem foldlM_register {sources : Sources} {tool_ids : List String}
    {previous last : Option (String × String)} {before functions : List Loaded}
    (loaded : tool_ids.foldlM (fun state tool_id =>
      (load sources state.1 tool_id).map (fun loaded => (loaded.1, state.2 ++ loaded.2)))
        (previous, before) = .ok (last, functions)) :
    tool_ids.foldlM (fun state tool_id =>
      (load sources state.1 tool_id).map (fun loaded =>
        (loaded.1, loaded.2.foldl register state.2))) (previous, before.foldl register Dict.empty) =
      .ok (last, functions.foldl register Dict.empty) := by
  induction tool_ids generalizing previous before with
  | nil =>
    obtain ⟨rfl, rfl⟩ := Prod.mk.inj (Except.ok.inj loaded)
    rfl
  | cons tool_id rest ih =>
    rw [List.foldlM_cons] at loaded ⊢
    obtain ⟨state, step, later⟩ := bind_eq_ok.mp loaded
    obtain ⟨found, done, rfl⟩ := map_eq_ok.mp step
    refine bind_eq_ok.mpr ⟨_, map_eq_ok.mpr ⟨found, done, rfl⟩, ?_⟩
    rw [← List.foldl_append]
    exact ih later

theorem get_tools_eq {sources : Sources} {tool_ids : List String} (plugins : sources.plugins = true)
    {functions : List Loaded} (loaded : loadAll sources tool_ids = .ok functions) :
    get_tools sources tool_ids = .ok (functions.foldl register Dict.empty) := by
  obtain ⟨state, done, rfl⟩ := map_eq_ok.mp loaded
  rw [get_tools, if_pos plugins]
  exact map_eq_ok.mpr ⟨_, foldlM_register done, rfl⟩

theorem foldlM_load {sources : Sources} {tool_ids : List String}
    {state last : Option (String × String) × Dict String ToolEntry}
    (done : tool_ids.foldlM (fun state tool_id =>
      (load sources state.1 tool_id).map (fun loaded =>
        (loaded.1, loaded.2.foldl register state.2))) state = .ok last) (before : List Loaded) :
    ∃ after, tool_ids.foldlM (fun state tool_id =>
      (load sources state.1 tool_id).map (fun loaded => (loaded.1, state.2 ++ loaded.2)))
        (state.1, before) = .ok after := by
  induction tool_ids generalizing state before with
  | nil => exact ⟨_, rfl⟩
  | cons tool_id rest ih =>
    rw [List.foldlM_cons] at done
    obtain ⟨next, step, later⟩ := bind_eq_ok.mp done
    obtain ⟨found, loads, rfl⟩ := map_eq_ok.mp step
    obtain ⟨after, finished⟩ := ih later (before ++ found.2)
    refine ⟨after, ?_⟩
    rw [List.foldlM_cons]
    exact bind_eq_ok.mpr ⟨_, map_eq_ok.mpr ⟨found, loads, rfl⟩, finished⟩

theorem loadAll_of_get_tools {sources : Sources} {tool_ids : List String}
    (plugins : sources.plugins = true) {tools : Dict String ToolEntry}
    (done : get_tools sources tool_ids = .ok tools) :
    ∃ functions, loadAll sources tool_ids = .ok functions := by
  rw [get_tools, if_pos plugins] at done
  obtain ⟨state, folded, _⟩ := map_eq_ok.mp done
  obtain ⟨after, finished⟩ := foldlM_load folded []
  exact ⟨after.2, map_eq_ok.mpr ⟨after, finished, rfl⟩⟩

theorem registered_iff (holds : String → ToolEntry → Prop) (functions : List Loaded) :
    (∀ name tool, (functions.foldl register Dict.empty).get? name = some tool → holds name tool) ↔
      Runs.Always (fun earlier function => holds (storedName earlier function) function.entry)
        functions := by
  induction functions using List.reverseRecOn with
  | nil => exact iff_of_true (fun _ _ found => by cases found) (Runs.always_nil _)
  | append_singleton functions function ih =>
    rw [Runs.always_append, ← ih, List.foldl_append, List.foldl_cons, List.foldl_nil]
    constructor
    · intro all
      refine ⟨?_, ?_⟩
      · intro name tool found
        refine all name tool ?_
        have other : storedName functions function ≠ name := by
          rintro rfl
          exact freeName_free _ _ _ (Dict.mem_keys_of_get? found)
        exact (Dict.get?_set ..).trans ((if_neg other).trans found)
      · exact all _ _ ((Dict.get?_set ..).trans (if_pos rfl))
    · rintro ⟨before, last⟩ name tool found
      rw [register, Dict.get?_set] at found
      split at found
      · rename_i same
        obtain rfl := Option.some.inj found
        rw [← same]
        exact last
      · exact before name tool found

theorem storedName_eq_iff (earlier : List Loaded) (function : Loaded) :
    function.entry.spec.name = storedName earlier function ↔
      function.entry.spec.name ∉ takenNames earlier := by
  constructor
  · intro same
    rw [same]
    exact freeName_free _ _ _
  · exact fun free => (firstFree_of_free free).symm

/-- The ids whose functions `get_tools` is asked for. -/
def dbToolIds (sources : Sources) (tool_ids : List String) : List String :=
  if sources.plugins then tool_ids.filter (fun tool_id => !isMcp tool_id) else []

/-- A function whose name is taken by one before it is stored under a name that a tool of an MCP
server, of the terminal or of a server of the client is written over. -/
def RenamedAreReplaced (sources : Sources) (tool_ids : List String) : Prop :=
  ∀ functions terminal_specs, loadAll sources (dbToolIds sources tool_ids) = .ok functions →
    sources.terminal = .ok terminal_specs →
      Runs.Always (fun earlier function =>
        function.entry.spec.name ∈ takenNames earlier →
          storedName earlier function ∈ replacingNames sources tool_ids terminal_specs) functions

theorem resolveTools_parts {sources : Sources} {tool_ids : List String}
    {tools : Dict String ToolEntry} (resolved : resolveTools sources tool_ids = .ok tools) :
    ∃ functions terminal_specs direct,
      loadAll sources (dbToolIds sources tool_ids) = .ok functions ∧
      sources.terminal = .ok terminal_specs ∧
      Overlay (functions.foldl register Dict.empty) direct
        (replacingNames sources tool_ids terminal_specs) ∧
      tools = sources.builtin_tools.foldl addBuiltin direct := by
  obtain ⟨db_tools, got, later⟩ := bind_eq_ok.mp resolved
  obtain ⟨terminal_specs, terminal, later⟩ := bind_eq_ok.mp later
  obtain rfl := Except.ok.inj later
  have stored : ∃ functions, loadAll sources (dbToolIds sources tool_ids) = .ok functions ∧
      db_tools = functions.foldl register Dict.empty := by
    by_cases plugins : sources.plugins = true
    · rw [dbToolIds]
      obtain ⟨functions, loaded⟩ := loadAll_of_get_tools plugins got
      exact ⟨functions, loaded, Except.ok.inj (got.symm.trans (get_tools_eq plugins loaded))⟩
    · rw [get_tools, if_neg plugins] at got
      rw [dbToolIds, if_neg plugins]
      exact ⟨[], rfl, (Except.ok.inj got).symm⟩
  obtain ⟨functions, loaded, rfl⟩ := stored
  refine ⟨functions, terminal_specs, _, loaded, terminal, ?_, rfl⟩
  rw [replacingNames, List.map_append, List.map_append]
  exact ((overlay_merge _ _).trans (overlay_merge _ _)).trans (overlay_foldl_setNamed _ _)

/-- Where a request goes through, the advertised tools and the dispatched ones agree exactly when no
function of a workspace tool or a server stays under another name than its own. -/
theorem tools_agree_iff (sources : Sources) (tool_ids : List String) {tools : Dict String ToolEntry}
    (resolved : resolveTools sources tool_ids = .ok tools) :
    Agree tools ↔ RenamedAreReplaced sources tool_ids := by
  obtain ⟨functions, terminal_specs, direct, loaded, terminal, overlay, rfl⟩ :=
    resolveTools_parts resolved
  have stored := (registered_iff (fun _ tool => tool.callable.isDirect = false) functions).mpr
    (fun _ function _ _ => function.stored)
  have direct_named : DirectNamed direct := by
    intro name tool found
    by_cases replaced : name ∈ replacingNames sources tool_ids terminal_specs
    · obtain ⟨other, there, same⟩ := overlay.written name replaced
      rw [Option.some.inj (found.symm.trans there)]
      exact Or.inl same
    · rw [overlay.others name replaced] at found
      exact Or.inr (stored name tool found)
  have named_iff : WellNamed direct ↔ ∀ name tool,
      (functions.foldl register Dict.empty).get? name = some tool →
        name ∉ replacingNames sources tool_ids terminal_specs → tool.spec.name = name := by
    constructor
    · intro named name tool found apart
      exact named name tool ((overlay.others name apart).trans found)
    · intro named name tool found
      by_cases replaced : name ∈ replacingNames sources tool_ids terminal_specs
      · obtain ⟨other, there, same⟩ := overlay.written name replaced
        rw [Option.some.inj (found.symm.trans there)]
        exact same
      · exact named name tool ((overlay.others name replaced).symm.trans found) replaced
  have renamed_iff : RenamedAreReplaced sources tool_ids ↔ Runs.Always (fun earlier function =>
      storedName earlier function ∉ replacingNames sources tool_ids terminal_specs →
        function.entry.spec.name = storedName earlier function) functions := by
    have each : ∀ earlier function,
        (function.entry.spec.name ∈ takenNames earlier →
          storedName earlier function ∈ replacingNames sources tool_ids terminal_specs) ↔
        (storedName earlier function ∉ replacingNames sources tool_ids terminal_specs →
          function.entry.spec.name = storedName earlier function) := by
      intro earlier function
      rw [storedName_eq_iff]
      exact not_imp_not.symm
    constructor
    · intro renamed earlier function later split
      exact (each earlier function).mp
        (renamed functions terminal_specs loaded terminal earlier function later split)
    · intro always others specs loads read earlier function later split
      obtain rfl := Except.ok.inj (loaded.symm.trans loads)
      obtain rfl := Except.ok.inj (terminal.symm.trans read)
      exact (each earlier function).mpr (always earlier function later split)
  rw [agree_iff_wellNamed (directNamed_builtins _ direct_named), wellNamed_builtins, named_iff,
    renamed_iff]
  exact registered_iff (fun name tool =>
    name ∉ replacingNames sources tool_ids terminal_specs → tool.spec.name = name) functions

def workspaceSources (first second : String) : Sources where
  plugins := true
  tool_models := fun tool_id =>
    if tool_id = "news" then some ⟨[⟨first, ["query"]⟩], true⟩
    else if tool_id = "files" then some ⟨[⟨second, ["query", "__user__"]⟩], true⟩
    else none
  tool_servers := []
  connections := []
  connect_mcp_server := fun _ => none
  terminal := .ok []
  direct_tool_servers := []
  builtin_tools := [⟨"search_web", ["query"]⟩]

def newsEntry (name : String) : ToolEntry := ⟨⟨name, ["query"]⟩, .workspace "news" name, rfl⟩

def filesEntry (name : String) : ToolEntry := ⟨⟨name, ["query"]⟩, .workspace "files" name, rfl⟩

def searchEntry : ToolEntry := ⟨⟨"search_web", ["query"]⟩, .builtin "search_web", rfl⟩

def plainTools : Dict String ToolEntry :=
  ⟨[("search_news", newsEntry "search_news"), ("search_files", filesEntry "search_files"),
    ("search_web", searchEntry)], by decide⟩

theorem plainTools_agree : Agree plainTools := by
  have resolved : resolveTools (workspaceSources "search_news" "search_files") ["news", "files"] =
      .ok plainTools := rfl
  refine (tools_agree_iff _ _ resolved).mpr ?_
  intro functions terminal_specs loaded _
  have both : loadAll (workspaceSources "search_news" "search_files") ["news", "files"] = .ok
      [⟨"news", newsEntry "search_news", rfl⟩, ⟨"files", filesEntry "search_files", rfl⟩] := rfl
  obtain rfl := Except.ok.inj (both.symm.trans loaded)
  simp only [Runs.always_cons, Runs.always_nil, and_true]
  exact ⟨fun taken => absurd taken (by decide), fun taken => absurd taken (by decide)⟩

def collidingTools : Dict String ToolEntry :=
  ⟨[("search", newsEntry "search"), ("files_search", filesEntry "search"),
    ("search_web", searchEntry)], by decide⟩

theorem collidingTools_disagree :
    resolveTools (workspaceSources "search" "search") ["news", "files"] = .ok collidingTools ∧
      (advertisedTools collidingTools).map Spec.name = ["search", "search", "search_web"] ∧
      dispatch collidingTools "search" = some (.workspace "news" "search") ∧
      ¬ Agree collidingTools := by
  refine ⟨rfl, rfl, rfl, ?_⟩
  intro agree
  exact absurd agree.distinct (by decide)

end OpenWebui.Tools
