-- Settings as documents.
import QueryReview.Config.Settings
import QueryReview.Wire.Session

namespace QueryReview.Wire

open QueryReview.Config

def ofServerSettings (s : ServerSettings) : Json :=
  .object [("bind", .string s.bind), ("max_body_bytes", .ofNat s.maxBodyBytes)]

def ofDatabaseSettings (s : DatabaseSettings) : Json :=
  .object [("url", .ofOption .string s.url)]

def ofLogSettings (s : LogSettings) : Json :=
  .object [
    ("json", .bool s.json),
    ("file_logs", .bool s.fileLogs),
    ("directory", .ofOption .string s.directory),
    ("filter", .ofOption .string s.filter),
    ("spans", .bool s.spans)]

def ofSettings (s : Settings) : Json :=
  .object [
    ("server", ofServerSettings s.server),
    ("database", ofDatabaseSettings s.database),
    ("session", ofOptions s.session),
    ("logging", ofLogSettings s.logging)]

end QueryReview.Wire
