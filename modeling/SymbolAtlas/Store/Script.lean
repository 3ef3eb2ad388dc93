import SymbolAtlas.Store.Schema

/-!
The statements of the migrations.  Each stands with the blanks and remarks before it, as the
engine reads a script, so that a complaint can quote the rest of the script from there.
-/

namespace SymbolAtlas

namespace Migration

def lines (ls : List String) : String := "\n".intercalate ls

def graphStatements : List String :=
  [ lines [
      "",
      "CREATE TABLE IF NOT EXISTS index_runs (",
      "    id INTEGER PRIMARY KEY AUTOINCREMENT,",
      "    repo TEXT,",
      "    commit_sha TEXT,",
      "    project_root TEXT,",
      "    lsif_version TEXT,",
      "    created_at INTEGER NOT NULL DEFAULT (unixepoch())",
      ") STRICT;"],
    lines [
      "",
      "",
      "CREATE TABLE IF NOT EXISTS documents (",
      "    id INTEGER PRIMARY KEY AUTOINCREMENT,",
      "    index_id INTEGER NOT NULL REFERENCES index_runs(id) ON DELETE CASCADE,",
      "    uri TEXT NOT NULL,",
      "    language_id TEXT",
      ") STRICT;"],
    lines [
      "",
      "",
      "CREATE INDEX IF NOT EXISTS idx_documents_index_uri ON documents(index_id, uri);"],
    lines [
      "",
      "",
      "CREATE TABLE IF NOT EXISTS hover_results (",
      "    id INTEGER PRIMARY KEY AUTOINCREMENT,",
      "    index_id INTEGER NOT NULL REFERENCES index_runs(id) ON DELETE CASCADE,",
      "    contents TEXT NOT NULL",
      ") STRICT;"],
    lines [
      "",
      "",
      "CREATE INDEX IF NOT EXISTS idx_hover_results_index ON hover_results(index_id);"],
    lines [
      "",
      "",
      "CREATE TABLE IF NOT EXISTS package_information (",
      "    id INTEGER PRIMARY KEY AUTOINCREMENT,",
      "    index_id INTEGER NOT NULL REFERENCES index_runs(id) ON DELETE CASCADE,",
      "    name TEXT NOT NULL,",
      "    version TEXT,",
      "    manager TEXT",
      ") STRICT;"],
    lines [
      "",
      "",
      "CREATE INDEX IF NOT EXISTS idx_package_information_index ON "
        ++ "package_information(index_id);"],
    lines [
      "",
      "",
      "CREATE TABLE IF NOT EXISTS monikers (",
      "    id INTEGER PRIMARY KEY AUTOINCREMENT,",
      "    index_id INTEGER NOT NULL REFERENCES index_runs(id) ON DELETE CASCADE,",
      "    scheme TEXT NOT NULL,",
      "    identifier TEXT NOT NULL,",
      "    kind TEXT,",
      "    package_id INTEGER REFERENCES package_information(id) ON DELETE SET NULL",
      ") STRICT;"],
    lines [
      "",
      "",
      "CREATE INDEX IF NOT EXISTS idx_monikers_index ON monikers(index_id);"],
    lines [
      "",
      "CREATE INDEX IF NOT EXISTS idx_monikers_package ON monikers(package_id);"],
    lines [
      "",
      "",
      "-- Symbols are shared across runs, deduplicated on (scheme, identifier).",
      "CREATE TABLE IF NOT EXISTS symbols (",
      "    id INTEGER PRIMARY KEY AUTOINCREMENT,",
      "    scheme TEXT NOT NULL,",
      "    identifier TEXT NOT NULL,",
      "    qualified_name TEXT NOT NULL,",
      "    kind TEXT,",
      "    UNIQUE (scheme, identifier)",
      ") STRICT;"],
    lines [
      "",
      "",
      "CREATE INDEX IF NOT EXISTS idx_symbols_qualified_name ON symbols(qualified_name);"],
    lines [
      "",
      "",
      "CREATE TABLE IF NOT EXISTS moniker_symbols (",
      "    moniker_id INTEGER PRIMARY KEY REFERENCES monikers(id) ON DELETE CASCADE,",
      "    symbol_id INTEGER NOT NULL REFERENCES symbols(id) ON DELETE CASCADE",
      ") STRICT;"],
    lines [
      "",
      "",
      "CREATE INDEX IF NOT EXISTS idx_moniker_symbols_symbol ON moniker_symbols(symbol_id);"],
    lines [
      "",
      "",
      "CREATE TABLE IF NOT EXISTS result_sets (",
      "    id INTEGER PRIMARY KEY AUTOINCREMENT,",
      "    index_id INTEGER NOT NULL REFERENCES index_runs(id) ON DELETE CASCADE,",
      "    definitions_result_id INTEGER,",
      "    references_result_id INTEGER,",
      "    type_definition_result_id INTEGER,",
      "    implementation_result_id INTEGER,",
      "    hover_id INTEGER REFERENCES hover_results(id) ON DELETE SET NULL,",
      "    moniker_id INTEGER REFERENCES monikers(id) ON DELETE SET NULL",
      ") STRICT;"],
    lines [
      "",
      "",
      "CREATE INDEX IF NOT EXISTS idx_result_sets_definitions ON result_sets(index_id, "
        ++ "definitions_result_id);"],
    lines [
      "",
      "CREATE INDEX IF NOT EXISTS idx_result_sets_references ON result_sets(index_id, "
        ++ "references_result_id);"],
    lines [
      "",
      "CREATE INDEX IF NOT EXISTS idx_result_sets_type_definition ON result_sets(index_id, "
        ++ "type_definition_result_id);"],
    lines [
      "",
      "CREATE INDEX IF NOT EXISTS idx_result_sets_implementation ON result_sets(index_id, "
        ++ "implementation_result_id);"],
    lines [
      "",
      "CREATE INDEX IF NOT EXISTS idx_result_sets_hover ON result_sets(hover_id);"],
    lines [
      "",
      "CREATE INDEX IF NOT EXISTS idx_result_sets_moniker ON result_sets(moniker_id);"],
    lines [
      "",
      "",
      "CREATE TABLE IF NOT EXISTS ranges (",
      "    id INTEGER PRIMARY KEY AUTOINCREMENT,",
      "    document_id INTEGER NOT NULL REFERENCES documents(id) ON DELETE CASCADE,",
      "    start_line INTEGER NOT NULL,",
      "    start_character INTEGER NOT NULL,",
      "    end_line INTEGER NOT NULL,",
      "    end_character INTEGER NOT NULL,",
      "    result_set_id INTEGER REFERENCES result_sets(id) ON DELETE SET NULL",
      ") STRICT;"],
    lines [
      "",
      "",
      "-- Position lookup: covering ranges in one document.",
      "CREATE INDEX IF NOT EXISTS idx_ranges_document_position",
      "    ON ranges(document_id, start_line, end_line);"],
    lines [
      "",
      "CREATE INDEX IF NOT EXISTS idx_ranges_result_set ON ranges(result_set_id);"],
    lines [
      "",
      "",
      "CREATE TABLE IF NOT EXISTS definitions_items (",
      "    id INTEGER PRIMARY KEY AUTOINCREMENT,",
      "    index_id INTEGER NOT NULL REFERENCES index_runs(id) ON DELETE CASCADE,",
      "    result_id INTEGER NOT NULL,",
      "    document_id INTEGER NOT NULL REFERENCES documents(id) ON DELETE CASCADE,",
      "    range_id INTEGER NOT NULL REFERENCES ranges(id) ON DELETE CASCADE",
      ") STRICT;"],
    lines [
      "",
      "",
      "CREATE INDEX IF NOT EXISTS idx_definitions_items_bucket ON "
        ++ "definitions_items(index_id, result_id);"],
    lines [
      "",
      "CREATE INDEX IF NOT EXISTS idx_definitions_items_document ON "
        ++ "definitions_items(document_id);"],
    lines [
      "",
      "CREATE INDEX IF NOT EXISTS idx_definitions_items_range ON definitions_items(range_id);"],
    lines [
      "",
      "",
      "CREATE TABLE IF NOT EXISTS references_items (",
      "    id INTEGER PRIMARY KEY AUTOINCREMENT,",
      "    index_id INTEGER NOT NULL REFERENCES index_runs(id) ON DELETE CASCADE,",
      "    result_id INTEGER NOT NULL,",
      "    document_id INTEGER NOT NULL REFERENCES documents(id) ON DELETE CASCADE,",
      "    range_id INTEGER NOT NULL REFERENCES ranges(id) ON DELETE CASCADE,",
      "    is_definition INTEGER NOT NULL DEFAULT 0",
      ") STRICT;"],
    lines [
      "",
      "",
      "CREATE INDEX IF NOT EXISTS idx_references_items_bucket ON "
        ++ "references_items(index_id, result_id);"],
    lines [
      "",
      "CREATE INDEX IF NOT EXISTS idx_references_items_document ON "
        ++ "references_items(document_id);"],
    lines [
      "",
      "CREATE INDEX IF NOT EXISTS idx_references_items_range ON references_items(range_id);"] ]

def symbolSearchStatements : List String :=
  [ lines [
      "",
      "CREATE VIRTUAL TABLE IF NOT EXISTS symbol_fts USING fts5(",
      "    qualified_name,",
      "    identifier,",
      "    content='symbols',",
      "    content_rowid='id',",
      "    tokenize='unicode61 tokenchars _'",
      ");"],
    lines [
      "",
      "",
      "CREATE TRIGGER IF NOT EXISTS symbol_fts_insert AFTER INSERT ON symbols BEGIN",
      "    INSERT INTO symbol_fts(rowid, qualified_name, identifier)",
      "    VALUES (new.id, new.qualified_name, new.identifier);",
      "END;"],
    lines [
      "",
      "",
      "CREATE TRIGGER IF NOT EXISTS symbol_fts_delete AFTER DELETE ON symbols BEGIN",
      "    INSERT INTO symbol_fts(symbol_fts, rowid, qualified_name, identifier)",
      "    VALUES ('delete', old.id, old.qualified_name, old.identifier);",
      "END;"],
    lines [
      "",
      "",
      "CREATE TRIGGER IF NOT EXISTS symbol_fts_update AFTER UPDATE ON symbols BEGIN",
      "    INSERT INTO symbol_fts(symbol_fts, rowid, qualified_name, identifier)",
      "    VALUES ('delete', old.id, old.qualified_name, old.identifier);",
      "    INSERT INTO symbol_fts(rowid, qualified_name, identifier)",
      "    VALUES (new.id, new.qualified_name, new.identifier);",
      "END;"],
    lines [
      "",
      "",
      "-- Backfill symbols written before this migration.",
      "INSERT INTO symbol_fts(symbol_fts) VALUES ('rebuild');"] ]

def occurrencesStatements : List String :=
  [ lines [
      "",
      "CREATE TABLE IF NOT EXISTS occurrences (",
      "    index_id INTEGER NOT NULL REFERENCES index_runs(id) ON DELETE CASCADE,",
      "    symbol_id INTEGER NOT NULL REFERENCES symbols(id) ON DELETE CASCADE,",
      "    document_id INTEGER NOT NULL REFERENCES documents(id) ON DELETE CASCADE,",
      "    range_id INTEGER NOT NULL REFERENCES ranges(id) ON DELETE CASCADE,",
      "    role TEXT NOT NULL CHECK (role IN ('definition', 'reference', 'implementation', "
        ++ "'type')),",
      "    PRIMARY KEY (index_id, symbol_id, document_id, range_id)",
      ") STRICT;"],
    lines [
      "",
      "",
      "CREATE INDEX IF NOT EXISTS idx_occurrences_document ON occurrences(document_id);"],
    lines [
      "",
      "CREATE INDEX IF NOT EXISTS idx_occurrences_range ON occurrences(range_id);"],
    lines [
      "",
      "CREATE INDEX IF NOT EXISTS idx_occurrences_symbol ON occurrences(symbol_id);"] ]

def statements : Migration → List String
  | graph => graphStatements
  | symbolSearch => symbolSearchStatements
  | occurrences => occurrencesStatements

/-- The rest of a script from a statement on. -/
def script (rest : List String) : String := String.join rest ++ "\n"

end Migration

end SymbolAtlas
