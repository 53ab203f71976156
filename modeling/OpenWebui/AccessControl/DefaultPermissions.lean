import OpenWebui.Base.Json

/-! `DEFAULT_USER_PERMISSIONS`: the permissions of a user without groups, each read
from an environment variable. -/

namespace OpenWebui.AccessControl

abbrev Environment := String → Option String

/-- `os.getenv(name, default).lower() == 'true'`. -/
def flag (env : Environment) (name default : String) : Json :=
  .bool (((env name).getD default).toList.map Char.toLower == "true".toList)

abbrev Setting := String × String × String

def workspaceSettings : List Setting :=
  [("models", "USER_PERMISSIONS_WORKSPACE_MODELS_ACCESS", "False"),
    ("knowledge", "USER_PERMISSIONS_WORKSPACE_KNOWLEDGE_ACCESS", "False"),
    ("prompts", "USER_PERMISSIONS_WORKSPACE_PROMPTS_ACCESS", "False"),
    ("tools", "USER_PERMISSIONS_WORKSPACE_TOOLS_ACCESS", "False"),
    ("skills", "USER_PERMISSIONS_WORKSPACE_SKILLS_ACCESS", "False"),
    ("models_import", "USER_PERMISSIONS_WORKSPACE_MODELS_IMPORT", "False"),
    ("models_export", "USER_PERMISSIONS_WORKSPACE_MODELS_EXPORT", "False"),
    ("prompts_import", "USER_PERMISSIONS_WORKSPACE_PROMPTS_IMPORT", "False"),
    ("prompts_export", "USER_PERMISSIONS_WORKSPACE_PROMPTS_EXPORT", "False"),
    ("tools_import", "USER_PERMISSIONS_WORKSPACE_TOOLS_IMPORT", "False"),
    ("tools_export", "USER_PERMISSIONS_WORKSPACE_TOOLS_EXPORT", "False"),
    ("skills_import", "USER_PERMISSIONS_WORKSPACE_SKILLS_IMPORT", "False"),
    ("skills_export", "USER_PERMISSIONS_WORKSPACE_SKILLS_EXPORT", "False")]

def sharingSettings : List Setting :=
  [("models", "USER_PERMISSIONS_WORKSPACE_MODELS_ALLOW_SHARING", "False"),
    ("public_models", "USER_PERMISSIONS_WORKSPACE_MODELS_ALLOW_PUBLIC_SHARING", "False"),
    ("knowledge", "USER_PERMISSIONS_WORKSPACE_KNOWLEDGE_ALLOW_SHARING", "False"),
    ("public_knowledge", "USER_PERMISSIONS_WORKSPACE_KNOWLEDGE_ALLOW_PUBLIC_SHARING", "False"),
    ("prompts", "USER_PERMISSIONS_WORKSPACE_PROMPTS_ALLOW_SHARING", "False"),
    ("public_prompts", "USER_PERMISSIONS_WORKSPACE_PROMPTS_ALLOW_PUBLIC_SHARING", "False"),
    ("tools", "USER_PERMISSIONS_WORKSPACE_TOOLS_ALLOW_SHARING", "False"),
    ("public_tools", "USER_PERMISSIONS_WORKSPACE_TOOLS_ALLOW_PUBLIC_SHARING", "False"),
    ("skills", "USER_PERMISSIONS_WORKSPACE_SKILLS_ALLOW_SHARING", "False"),
    ("public_skills", "USER_PERMISSIONS_WORKSPACE_SKILLS_ALLOW_PUBLIC_SHARING", "False"),
    ("notes", "USER_PERMISSIONS_NOTES_ALLOW_SHARING", "False"),
    ("public_notes", "USER_PERMISSIONS_NOTES_ALLOW_PUBLIC_SHARING", "False"),
    ("folders", "USER_PERMISSIONS_FOLDERS_ALLOW_SHARING", "False"),
    ("public_chats", "USER_PERMISSIONS_CHAT_ALLOW_PUBLIC_SHARING", "False"),
    ("open_chats", "USER_PERMISSIONS_CHAT_ALLOW_OPEN_SHARING", "False"),
    ("public_calendars", "USER_PERMISSIONS_CALENDAR_ALLOW_PUBLIC_SHARING", "False")]

def accessGrantsSettings : List Setting :=
  [("allow_users", "USER_PERMISSIONS_ACCESS_GRANTS_ALLOW_USERS", "True"),
    ("allow_groups", "USER_PERMISSIONS_ACCESS_GRANTS_ALLOW_GROUPS", "True")]

def chatSettings : List Setting :=
  [("controls", "USER_PERMISSIONS_CHAT_CONTROLS", "True"),
    ("valves", "USER_PERMISSIONS_CHAT_VALVES", "True"),
    ("system_prompt", "USER_PERMISSIONS_CHAT_SYSTEM_PROMPT", "True"),
    ("params", "USER_PERMISSIONS_CHAT_PARAMS", "True"),
    ("file_upload", "USER_PERMISSIONS_CHAT_FILE_UPLOAD", "True"),
    ("web_upload", "USER_PERMISSIONS_CHAT_WEB_UPLOAD", "True"),
    ("delete", "USER_PERMISSIONS_CHAT_DELETE", "True"),
    ("delete_message", "USER_PERMISSIONS_CHAT_DELETE_MESSAGE", "True"),
    ("continue_response", "USER_PERMISSIONS_CHAT_CONTINUE_RESPONSE", "True"),
    ("regenerate_response", "USER_PERMISSIONS_CHAT_REGENERATE_RESPONSE", "True"),
    ("rate_response", "USER_PERMISSIONS_CHAT_RATE_RESPONSE", "True"),
    ("edit", "USER_PERMISSIONS_CHAT_EDIT", "True"),
    ("share", "USER_PERMISSIONS_CHAT_SHARE", "True"),
    ("export", "USER_PERMISSIONS_CHAT_EXPORT", "True"),
    ("import", "USER_PERMISSIONS_CHAT_IMPORT", "True"),
    ("stt", "USER_PERMISSIONS_CHAT_STT", "True"),
    ("tts", "USER_PERMISSIONS_CHAT_TTS", "True"),
    ("call", "USER_PERMISSIONS_CHAT_CALL", "True"),
    ("multiple_models", "USER_PERMISSIONS_CHAT_MULTIPLE_MODELS", "True"),
    ("temporary", "USER_PERMISSIONS_CHAT_TEMPORARY", "True"),
    ("temporary_enforced", "USER_PERMISSIONS_CHAT_TEMPORARY_ENFORCED", "False")]

def featuresSettings : List Setting :=
  [("api_keys", "USER_PERMISSIONS_FEATURES_API_KEYS", "False"),
    ("notes", "USER_PERMISSIONS_FEATURES_NOTES", "True"),
    ("folders", "USER_PERMISSIONS_FEATURES_FOLDERS", "True"),
    ("channels", "USER_PERMISSIONS_FEATURES_CHANNELS", "True"),
    ("direct_tool_servers", "USER_PERMISSIONS_FEATURES_DIRECT_TOOL_SERVERS", "False"),
    ("web_search", "USER_PERMISSIONS_FEATURES_WEB_SEARCH", "True"),
    ("image_generation", "USER_PERMISSIONS_FEATURES_IMAGE_GENERATION", "True"),
    ("code_interpreter", "USER_PERMISSIONS_FEATURES_CODE_INTERPRETER", "True"),
    ("memories", "USER_PERMISSIONS_FEATURES_MEMORIES", "True"),
    ("automations", "USER_PERMISSIONS_FEATURES_AUTOMATIONS", "False"),
    ("calendar", "USER_PERMISSIONS_FEATURES_CALENDAR", "True"),
    ("webhooks", "USER_PERMISSIONS_FEATURES_USER_WEBHOOKS", "False")]

def settingsSettings : List Setting :=
  [("interface", "USER_PERMISSIONS_SETTINGS_INTERFACE", "True")]

def category (env : Environment) (settings : List Setting) : Json :=
  .obj (settings.map (fun setting => (setting.1, flag env setting.2.1 setting.2.2)))

def DEFAULT_USER_PERMISSIONS (env : Environment) : Fields :=
  [("workspace", category env workspaceSettings),
    ("sharing", category env sharingSettings),
    ("access_grants", category env accessGrantsSettings),
    ("chat", category env chatSettings),
    ("features", category env featuresSettings),
    ("settings", category env settingsSettings)]

end OpenWebui.AccessControl
