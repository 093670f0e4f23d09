/-!
# Keywords

The words of template SQL that have a meaning of their own. A keyword is recognised by its spelling
in capitals; a quoted word never is one.
-/

namespace QueryTemplate.Sql

/-- The keywords that a rule of the grammar mentions, be it to refuse them. -/
inductive Keyword
  | ALL | ANALYZE | AND | ANTI | ANY | ARRAY | AS | ASC | ASOF | BETWEEN | BOTH | BY | CASCADE
  | CASE | CAST | CEIL | CHAIN | CLUSTER | COLLATE | COMMIT | CONNECT | CONVERT
  | CREATE | CROSS | CUBE | CURRENT_CATALOG | CURRENT_DATE | CURRENT_TIME | CURRENT_TIMESTAMP
  | CURRENT_USER | DATE32 | DATETIME64 | DEFAULT | DELETE | DESC | DISTINCT | DISTRIBUTE | DIV
  | DROP | ELSE | END | ENUM | ENUM16 | ENUM8 | ESCAPE | EXCEPT | EXISTS | EXPLAIN | EXTRACT
  | FALSE | FETCH | FILTER | FIRST | FIXEDSTRING | FLOAT32 | FLOOR | FOR | FORMAT | FROM | FULL
  | GLOBAL | GROUP | GROUPING | HAVING | IF | IGNORE | ILIKE | IN | INNER | INSERT | INT128
  | INT16 | INT256 | INT32 | INTERSECT | INTERVAL | INTO | IS | JOIN | JSON_TABLE | KEY | LAST
  | LATERAL | LEADING | LEFT | LIKE | LIMIT | LOCALTIME | LOCALTIMESTAMP | LONGBLOB | LONGTEXT
  | LOWCARDINALITY | MAP | MATCH_CONDITION | MATCH_RECOGNIZE | MEDIUMBLOB | MEDIUMTEXT | NATURAL
  | NESTED | NO | NOT | NULL | NULLABLE | NULLS | OFFSET | ON | OPENJSON | OPERATOR | OR | ORDER
  | OUTER | OVER | OVERLAPS | OVERWRITE | PARTITION | PERCENT | PIVOT | POSITION | PRECISION
  | PREWHERE | PRIMARY | QUALIFY | RECURSIVE | REGEXP | RESPECT | RESTRICT | RETURNING | RIGHT
  | RLIKE | ROLLBACK | ROLLUP | ROW | ROWS | SAFE_CAST | SAMPLE | SAVEPOINT | SELECT | SEMI
  | SESSION_USER | SET | SETS | SETTINGS | SIMILAR | SOME | SORT | START | STRUCT | SUBSTRING
  | TABLE | TABLESAMPLE | THEN | TIES | TIME | TINYBLOB | TINYTEXT | TO | TOP | TRAILING
  | TRANSACTION | TRIGGER | TRIM | TRUE | TRUNCATE | TRY_CAST | TRY_CONVERT | TUPLE | UINT128
  | UINT16 | UINT256 | UINT32 | UINT64 | UINT8 | UNION | UNIQUE | UNKNOWN | UNNEST | UNPIVOT
  | UNSIGNED | UPDATE | USER | USING | VALUES | VARYING | VIEW | WHEN | WHERE | WINDOW | WITH
  | WITHIN | WITHOUT | WORK | XOR | ZONE
  deriving DecidableEq, Repr

namespace Keyword

def table : List (String × Keyword) :=
  [("ALL", .ALL), ("ANALYZE", .ANALYZE), ("AND", .AND), ("ANTI", .ANTI), ("ANY", .ANY),
   ("ARRAY", .ARRAY), ("AS", .AS), ("ASC", .ASC), ("ASOF", .ASOF), ("BETWEEN", .BETWEEN),
   ("BOTH", .BOTH), ("BY", .BY), ("CASCADE", .CASCADE), ("CASE", .CASE), ("CAST", .CAST),
   ("CEIL", .CEIL), ("CHAIN", .CHAIN), ("CLUSTER", .CLUSTER),
   ("COLLATE", .COLLATE), ("COMMIT", .COMMIT), ("CONNECT", .CONNECT), ("CONVERT", .CONVERT),
   ("CREATE", .CREATE), ("CROSS", .CROSS), ("CUBE", .CUBE), ("CURRENT_CATALOG", .CURRENT_CATALOG),
   ("CURRENT_DATE", .CURRENT_DATE), ("CURRENT_TIME", .CURRENT_TIME),
   ("CURRENT_TIMESTAMP", .CURRENT_TIMESTAMP), ("CURRENT_USER", .CURRENT_USER),
   ("DATE32", .DATE32), ("DATETIME64", .DATETIME64), ("DEFAULT", .DEFAULT), ("DELETE", .DELETE),
   ("DESC", .DESC), ("DISTINCT", .DISTINCT), ("DISTRIBUTE", .DISTRIBUTE), ("DIV", .DIV),
   ("DROP", .DROP), ("ELSE", .ELSE), ("END", .END), ("ENUM", .ENUM), ("ENUM16", .ENUM16),
   ("ENUM8", .ENUM8), ("ESCAPE", .ESCAPE), ("EXCEPT", .EXCEPT), ("EXISTS", .EXISTS),
   ("EXPLAIN", .EXPLAIN), ("EXTRACT", .EXTRACT), ("FALSE", .FALSE), ("FETCH", .FETCH),
   ("FILTER", .FILTER), ("FIRST", .FIRST), ("FIXEDSTRING", .FIXEDSTRING), ("FLOAT32", .FLOAT32),
   ("FLOOR", .FLOOR), ("FOR", .FOR), ("FORMAT", .FORMAT), ("FROM", .FROM), ("FULL", .FULL),
   ("GLOBAL", .GLOBAL), ("GROUP", .GROUP), ("GROUPING", .GROUPING), ("HAVING", .HAVING),
   ("IF", .IF), ("IGNORE", .IGNORE), ("ILIKE", .ILIKE), ("IN", .IN), ("INNER", .INNER),
   ("INSERT", .INSERT), ("INT128", .INT128), ("INT16", .INT16), ("INT256", .INT256),
   ("INT32", .INT32), ("INTERSECT", .INTERSECT), ("INTERVAL", .INTERVAL), ("INTO", .INTO),
   ("IS", .IS), ("JOIN", .JOIN), ("JSON_TABLE", .JSON_TABLE), ("KEY", .KEY), ("LAST", .LAST),
   ("LATERAL", .LATERAL), ("LEADING", .LEADING), ("LEFT", .LEFT), ("LIKE", .LIKE),
   ("LIMIT", .LIMIT), ("LOCALTIME", .LOCALTIME), ("LOCALTIMESTAMP", .LOCALTIMESTAMP),
   ("LONGBLOB", .LONGBLOB), ("LONGTEXT", .LONGTEXT), ("LOWCARDINALITY", .LOWCARDINALITY),
   ("MAP", .MAP), ("MATCH_CONDITION", .MATCH_CONDITION), ("MATCH_RECOGNIZE", .MATCH_RECOGNIZE),
   ("MEDIUMBLOB", .MEDIUMBLOB), ("MEDIUMTEXT", .MEDIUMTEXT), ("NATURAL", .NATURAL),
   ("NESTED", .NESTED), ("NO", .NO), ("NOT", .NOT), ("NULL", .NULL), ("NULLABLE", .NULLABLE),
   ("NULLS", .NULLS), ("OFFSET", .OFFSET), ("ON", .ON), ("OPENJSON", .OPENJSON),
   ("OPERATOR", .OPERATOR), ("OR", .OR), ("ORDER", .ORDER), ("OUTER", .OUTER), ("OVER", .OVER),
   ("OVERLAPS", .OVERLAPS), ("OVERWRITE", .OVERWRITE), ("PARTITION", .PARTITION),
   ("PERCENT", .PERCENT), ("PIVOT", .PIVOT), ("POSITION", .POSITION), ("PRECISION", .PRECISION),
   ("PREWHERE", .PREWHERE), ("PRIMARY", .PRIMARY), ("QUALIFY", .QUALIFY),
   ("RECURSIVE", .RECURSIVE), ("REGEXP", .REGEXP), ("RESPECT", .RESPECT), ("RESTRICT", .RESTRICT),
   ("RETURNING", .RETURNING), ("RIGHT", .RIGHT), ("RLIKE", .RLIKE), ("ROLLBACK", .ROLLBACK),
   ("ROLLUP", .ROLLUP), ("ROW", .ROW), ("ROWS", .ROWS), ("SAFE_CAST", .SAFE_CAST),
   ("SAMPLE", .SAMPLE), ("SAVEPOINT", .SAVEPOINT), ("SELECT", .SELECT), ("SEMI", .SEMI),
   ("SESSION_USER", .SESSION_USER), ("SET", .SET), ("SETS", .SETS), ("SETTINGS", .SETTINGS),
   ("SIMILAR", .SIMILAR), ("SOME", .SOME), ("SORT", .SORT), ("START", .START),
   ("STRUCT", .STRUCT), ("SUBSTRING", .SUBSTRING), ("TABLE", .TABLE),
   ("TABLESAMPLE", .TABLESAMPLE), ("THEN", .THEN), ("TIES", .TIES), ("TIME", .TIME),
   ("TINYBLOB", .TINYBLOB), ("TINYTEXT", .TINYTEXT), ("TO", .TO), ("TOP", .TOP),
   ("TRAILING", .TRAILING), ("TRANSACTION", .TRANSACTION), ("TRIGGER", .TRIGGER), ("TRIM", .TRIM),
   ("TRUE", .TRUE), ("TRUNCATE", .TRUNCATE), ("TRY_CAST", .TRY_CAST),
   ("TRY_CONVERT", .TRY_CONVERT), ("TUPLE", .TUPLE), ("UINT128", .UINT128), ("UINT16", .UINT16),
   ("UINT256", .UINT256), ("UINT32", .UINT32), ("UINT64", .UINT64), ("UINT8", .UINT8),
   ("UNION", .UNION), ("UNIQUE", .UNIQUE), ("UNKNOWN", .UNKNOWN), ("UNNEST", .UNNEST),
   ("UNPIVOT", .UNPIVOT), ("UNSIGNED", .UNSIGNED), ("UPDATE", .UPDATE), ("USER", .USER),
   ("USING", .USING), ("VALUES", .VALUES), ("VARYING", .VARYING), ("VIEW", .VIEW),
   ("WHEN", .WHEN), ("WHERE", .WHERE), ("WINDOW", .WINDOW), ("WITH", .WITH), ("WITHIN", .WITHIN),
   ("WITHOUT", .WITHOUT), ("WORK", .WORK), ("XOR", .XOR), ("ZONE", .ZONE)]

def ofCapitals? (word : String) : Option Keyword :=
  table.lookup word

/-- Further keywords, which no rule mentions but which cannot stand for a text. -/
def others : List String :=
  ["ABORT", "ABS", "ABSOLUTE", "ACCESS", "ACCOUNT", "ACTION", "ADD", "ADMIN", "AFTER", "AGAINST",
   "AGGREGATION", "ALERT", "ALGORITHM", "ALIAS", "ALLOCATE", "ALTER", "ALWAYS", "APPLICATION",
   "APPLY", "ARCHIVE", "ARE", "ARRAY_MAX_CARDINALITY", "ASENSITIVE", "ASSERT", "ASYMMETRIC", "AT",
   "ATOMIC", "ATTACH", "AUDIT", "AUTHORIZATION", "AUTO", "AUTOINCREMENT", "AUTO_INCREMENT", "AVG",
   "AVRO", "BACKWARD", "BASE64", "BASE_LOCATION", "BEGIN", "BEGIN_FRAME", "BEGIN_PARTITION",
   "BIGDECIMAL", "BIGINT", "BIGNUMERIC", "BINARY", "BINDING", "BIT", "BLOB", "BLOOMFILTER",
   "BOOL", "BOOLEAN", "BROWSE", "BTREE", "BUCKET", "BUCKETS", "BYPASSRLS", "BYTEA", "BYTES",
   "CACHE", "CALL", "CALLED", "CARDINALITY", "CASCADED", "CASES", "CATALOG", "CATALOG_SYNC",
   "CEILING", "CENTURY", "CHANGE", "CHANGE_TRACKING", "CHANNEL", "CHAR", "CHARACTER",
   "CHARACTERS", "CHARACTER_LENGTH", "CHARSET", "CHAR_LENGTH", "CHECK", "CLEAR", "CLOB", "CLONE", "CLOSE",
   "CLUSTERED", "CLUSTERING", "COALESCE", "COLLATION", "COLLECT", "COLLECTION", "COLUMN",
   "COLUMNS", "COLUMNSTORE", "COMMENT", "COMMITTED", "COMPRESSION", "COMPUTE", "CONCURRENTLY",
   "CONDITION", "CONFLICT", "CONNECTION", "CONNECTOR", "CONSTRAINT", "CONTAINS", "CONTINUE",
   "COPY", "COPY_OPTIONS", "CORR", "CORRESPONDING", "COUNT", "COVAR_POP", "COVAR_SAMP",
   "CREATEDB", "CREATEROLE", "CREDENTIALS", "CSV", "CUME_DIST", "CURRENT",
   "CURRENT_DEFAULT_TRANSFORM_GROUP", "CURRENT_PATH", "CURRENT_ROLE", "CURRENT_ROW",
   "CURRENT_SCHEMA", "CURRENT_TRANSFORM_GROUP_FOR_TYPE", "CURSOR", "CYCLE", "DATA", "DATABASE",
   "DATABASES", "DATA_RETENTION_TIME_IN_DAYS", "DATE", "DATETIME", "DAY", "DAYOFWEEK",
   "DAYOFYEAR", "DEALLOCATE", "DEC", "DECADE", "DECIMAL", "DECLARE", "DEDUPLICATE",
   "DEFAULT_DDL_COLLATION", "DEFERRABLE", "DEFERRED", "DEFINE", "DEFINED", "DEFINER", "DELAYED",
   "DELIMITED", "DELIMITER", "DELTA", "DENSE_RANK", "DEREF", "DESCRIBE", "DETACH", "DETAIL",
   "DETERMINISTIC", "DIRECTORY", "DISABLE", "DISCARD", "DISCONNECT", "DO", "DOUBLE", "DOW", "DOY",
   "DRY", "DUPLICATE", "DYNAMIC", "EACH", "ELEMENT", "ELEMENTS", "EMPTY", "ENABLE",
   "ENABLE_SCHEMA_EVOLUTION", "ENCODING", "ENCRYPTION", "ENDPOINT", "END_FRAME", "END_PARTITION",
   "ENFORCED", "ENGINE", "EPHEMERAL", "EPOCH", "EQUALS", "ERROR", "ESCAPED", "ESTIMATE", "EVENT",
   "EVERY", "EVOLVE", "EXCEPTION", "EXCHANGE", "EXCLUDE", "EXCLUSIVE", "EXEC", "EXECUTE", "EXP",
   "EXPANSION", "EXPLICIT", "EXPORT", "EXTENDED", "EXTENSION", "EXTERNAL", "EXTERNAL_VOLUME",
   "FAIL", "FIELDS", "FILE", "FILES", "FILE_FORMAT", "FILL", "FINAL", "FIRST_VALUE", "FLOAT",
   "FLOAT4", "FLOAT64", "FLOAT8", "FLUSH", "FN", "FOLLOWING", "FORCE", "FORCE_NOT_NULL",
   "FORCE_NULL", "FORCE_QUOTE", "FOREIGN", "FORMATTED", "FORWARD", "FRAME_ROW", "FREE", "FREEZE",
   "FSCK", "FULFILLMENT", "FULLTEXT", "FUNCTION", "FUNCTIONS", "FUSION", "GENERAL", "GENERATE",
   "GENERATED", "GEOGRAPHY", "GET", "GRANT", "GRANTED", "GRANTS", "GRAPHVIZ", "GROUPS", "HASH",
   "HEADER", "HEAP", "HIGH_PRIORITY", "HISTORY", "HIVEVAR", "HOLD", "HOSTS", "HOUR", "HOURS",
   "IDENTITY", "IDENTITY_INSERT", "IMMEDIATE", "IMMUTABLE", "IMPORT", "INCLUDE",
   "INCLUDE_NULL_VALUES", "INCREMENT", "INDEX", "INDICATOR", "INHERIT", "INITIALLY", "INOUT",
   "INPATH", "INPUT", "INPUTFORMAT", "INSENSITIVE", "INSTALL", "INSTEAD", "INT", "INT2", "INT4",
   "INT64", "INT8", "INTEGER", "INTERPOLATE", "INTERSECTION", "INVOKER", "IO", "ISODOW",
   "ISOLATION", "ISOWEEK", "ISOYEAR", "ITEMS", "JAR", "JSON", "JSONB", "JSONFILE", "JULIAN",
   "KEYS", "KILL", "LAG", "LANGUAGE", "LARGE", "LAST_VALUE", "LEAD", "LEVEL", "LIKE_REGEX",
   "LINES", "LIST", "LISTEN", "LN", "LOAD", "LOCAL", "LOCATION", "LOCK", "LOCKED", "LOG", "LOGIN",
   "LOGS", "LOWER", "LOW_PRIORITY", "MACRO", "MANAGEDLOCATION", "MASKING", "MATCH", "MATCHED",
   "MATCHES", "MATERIALIZE", "MATERIALIZED", "MAX", "MAXVALUE", "MAX_DATA_EXTENSION_TIME_IN_DAYS",
   "MEASURES", "MEDIUMINT", "MEMBER", "MERGE", "METADATA", "METHOD", "METRIC", "MICROSECOND",
   "MICROSECONDS", "MILLENIUM", "MILLENNIUM", "MILLISECOND", "MILLISECONDS", "MIN", "MINUTE",
   "MINVALUE", "MOD", "MODE", "MODIFIES", "MODIFY", "MODULE", "MONTH", "MSCK", "MULTISET",
   "MUTATION", "NAME", "NANOSECOND", "NANOSECONDS", "NATIONAL", "NCHAR", "NCLOB", "NEW", "NEXT",
   "NOBYPASSRLS", "NOCREATEDB", "NOCREATEROLE", "NOINHERIT", "NOLOGIN", "NONE", "NOORDER",
   "NOREPLICATION", "NORMALIZE", "NOSCAN", "NOSUPERUSER", "NOTHING", "NOTIFY", "NOWAIT",
   "NO_WRITE_TO_BINLOG", "NTH_VALUE", "NTILE", "NULLIF", "NUMERIC", "NVARCHAR", "OBJECT",
   "OCCURRENCES_REGEX", "OCTETS", "OCTET_LENGTH", "OF", "OLD", "OMIT", "ONE", "ONLY", "OPEN",
   "OPTIMIZE", "OPTIMIZER_COSTS", "OPTION", "OPTIONS", "ORC", "ORDINALITY", "OUT", "OUTPUTFORMAT",
   "OVERFLOW", "OVERLAY", "OVERRIDE", "OWNED", "OWNER", "OWNERSHIP", "PACKAGE", "PARALLEL",
   "PARAMETER", "PARQUET", "PART", "PARTITIONED", "PARTITIONS", "PASSWORD", "PAST", "PATH",
   "PATTERN", "PER", "PERCENTILE_CONT", "PERCENTILE_DISC", "PERCENT_RANK", "PERIOD", "PERMISSIVE",
   "PERSISTENT", "PLACING", "PLAN", "PLANS", "POLICY", "PORTION", "POSITION_REGEX", "POWER",
   "PRAGMA", "PRECEDES", "PRECEDING", "PREPARE", "PRESERVE", "PRIOR", "PRIVILEGES", "PROCEDURE",
   "PROGRAM", "PROJECTION", "PURGE", "QUARTER", "QUERY", "QUOTE", "RANGE", "RANK", "RAW",
   "RCFILE", "READ", "READS", "READ_ONLY", "REAL", "REF", "REFERENCES", "REFERENCING", "REGCLASS",
   "REGR_AVGX", "REGR_AVGY", "REGR_COUNT", "REGR_INTERCEPT", "REGR_R2", "REGR_SLOPE", "REGR_SXX",
   "REGR_SXY", "REGR_SYY", "RELATIVE", "RELAY", "RELEASE", "REMOTE", "RENAME", "REORG", "REPAIR",
   "REPEATABLE", "REPLACE", "REPLICA", "REPLICATION", "RESET", "RESTART", "RESTRICTED",
   "RESTRICTIVE", "RESULT", "RESULTSET", "RETAIN", "RETURN", "RETURNS", "REVOKE", "ROLE", "ROLES",
   "ROOT", "ROWID", "ROW_NUMBER", "RULE", "RUN", "SAFE", "SCHEMA", "SCHEMAS", "SCOPE", "SCROLL",
   "SEARCH", "SECOND", "SECRET", "SECURITY", "SENSITIVE", "SEPARATOR", "SEQUENCE", "SEQUENCEFILE",
   "SEQUENCES", "SERDE", "SERDEPROPERTIES", "SERIALIZABLE", "SERVER", "SESSION", "SHARE", "SHOW",
   "SKIP", "SLOW", "SMALLINT", "SNAPSHOT", "SORTED", "SOURCE", "SPATIAL", "SPECIFIC",
   "SPECIFICTYPE", "SQL", "SQLEXCEPTION", "SQLSTATE", "SQLWARNING", "SQRT", "STABLE", "STAGE",
   "STATEMENT", "STATIC", "STATISTICS", "STATUS", "STDDEV_POP", "STDDEV_SAMP", "STDIN", "STDOUT",
   "STEP", "STORAGE_INTEGRATION", "STORAGE_SERIALIZATION_POLICY", "STORED", "STRICT", "STRING",
   "SUBMULTISET", "SUBSTRING_REGEX", "SUCCEEDS", "SUM", "SUPER", "SUPERUSER", "SUPPORT",
   "SUSPEND", "SWAP", "SYMMETRIC", "SYNC", "SYSTEM", "SYSTEM_TIME", "SYSTEM_USER", "TABLES",
   "TAG", "TARGET", "TBLPROPERTIES", "TEMP", "TEMPORARY", "TERMINATED", "TERSE", "TEXT",
   "TEXTFILE", "TIMESTAMP", "TIMESTAMPTZ", "TIMETZ", "TIMEZONE", "TIMEZONE_ABBR", "TIMEZONE_HOUR",
   "TIMEZONE_MINUTE", "TIMEZONE_REGION", "TINYINT", "TOTALS", "TRACE", "TRANSIENT", "TRANSLATE",
   "TRANSLATE_REGEX", "TRANSLATION", "TREAT", "TREE", "TRIM_ARRAY", "TRY", "TYPE", "UESCAPE",
   "UNBOUNDED", "UNCACHE", "UNCOMMITTED", "UNFREEZE", "UNLISTEN", "UNLOAD", "UNLOCK", "UNLOGGED",
   "UNMATCHED", "UNSAFE", "UNTIL", "UPPER", "URL", "USAGE", "USE", "USER_RESOURCES", "UUID",
   "VACUUM", "VALID", "VALIDATION_MODE", "VALUE", "VALUE_OF", "VARBINARY", "VARCHAR", "VARIABLES",
   "VAR_POP", "VAR_SAMP", "VERBOSE", "VERSION", "VERSIONING", "VERSIONS", "VIEWS", "VIRTUAL",
   "VOLATILE", "WAREHOUSE", "WEEK", "WHENEVER", "WIDTH_BUCKET", "WITHOUT_ARRAY_WRAPPER", "WRITE",
   "XML", "YEAR", "ZORDER"]

def isKeyword (word : String) : Bool :=
  (ofCapitals? word).isSome || others.contains word

/-! ## Capitals -/

/-- The capitals of a letter, as far as they are ASCII letters. -/
def capitals (c : Char) : List Char :=
  match c with
  | 'ı' => ['I']
  | 'ſ' => ['S']
  | 'ß' => ['S', 'S']
  | 'ﬀ' => ['F', 'F']
  | 'ﬁ' => ['F', 'I']
  | 'ﬂ' => ['F', 'L']
  | 'ﬃ' => ['F', 'F', 'I']
  | 'ﬄ' => ['F', 'F', 'L']
  | 'ﬅ' => ['S', 'T']
  | 'ﬆ' => ['S', 'T']
  | c => [c.toUpper]

def inCapitals (word : String) : String :=
  String.ofList (word.toList.flatMap capitals)

/-! ## Words that are no aliases -/

/-- Words that cannot name a column without `AS` before them. -/
def columnReserved : List Keyword :=
  [.WITH, .EXPLAIN, .ANALYZE, .SELECT, .WHERE, .GROUP, .SORT, .HAVING, .ORDER, .TOP, .LATERAL,
   .VIEW, .LIMIT, .OFFSET, .FETCH, .UNION, .EXCEPT, .INTERSECT, .CLUSTER, .DISTRIBUTE, .RETURNING,
   .FROM, .INTO, .END]

/-- Words that cannot name a table without `AS` before them. -/
def tableReserved : List Keyword :=
  [.WITH, .EXPLAIN, .ANALYZE, .SELECT, .WHERE, .GROUP, .SORT, .HAVING, .ORDER, .PIVOT, .UNPIVOT,
   .TOP, .LATERAL, .VIEW, .LIMIT, .OFFSET, .FETCH, .UNION, .EXCEPT, .INTERSECT, .ON, .JOIN, .INNER,
   .CROSS, .FULL, .LEFT, .RIGHT, .NATURAL, .USING, .CLUSTER, .DISTRIBUTE, .GLOBAL, .ANTI, .SEMI,
   .RETURNING, .ASOF, .MATCH_CONDITION, .OUTER, .SET, .QUALIFY, .WINDOW, .END, .FOR, .PARTITION,
   .PREWHERE, .SETTINGS, .FORMAT, .START, .CONNECT, .SAMPLE, .TABLESAMPLE, .MATCH_RECOGNIZE]

end Keyword

end QueryTemplate.Sql
